import Mathlib.Data.List.Dedup
import OsmoSmlc.Core.Run
import OsmoSmlc.Model.Sample
import OsmoSmlc.Service.Subscribers

/-! The law of the subscriber store: after any calls it lists, in order of creation, one
subscriber for each IMSI of which a token is outstanding, and no other. -/
namespace OsmoSmlc
open Osmo

variable {τ : Type} [DecidableEq τ]

/-- A call that the users of the store may make. -/
inductive SubscrOp (τ : Type) where
  | findOrCreate (imsi : MobileIdentity) (use : τ)
  | find (imsi : MobileIdentity) (use : τ)
  | get (s : SubscrPtr) (use : τ)
  | put (s : SubscrPtr) (use : τ)

/-- A call that was made, with the subscriber that it returned. -/
structure SubscrCall (τ : Type) where
  op : SubscrOp τ
  subscr : Option SubscrPtr

def SubscrOp.exec (L : Libosmo) : SubscrOp τ → Prog Crash (Subscribers τ) (Option SubscrPtr)
  | .findOrCreate imsi use => do
      let smlcSubscr ← smlcSubscrFindOrCreate L imsi use
      return some smlcSubscr
  | .find imsi use => smlcSubscrFind L imsi use
  | .get s use => do
      smlcSubscrGet s use
      return none
  | .put s use => do
      smlcSubscrPut s use
      return none

namespace SubscrCall

def takes (s : SubscrPtr) (use : τ) (c : SubscrCall τ) : Bool :=
  match c.op with
  | .findOrCreate _ use' | .find _ use' => c.subscr = some s && use' = use
  | .get s' use' => s' = s && use' = use
  | .put _ _ => false

def returns (s : SubscrPtr) (use : τ) (c : SubscrCall τ) : Bool :=
  match c.op with
  | .put s' use' => s' = s && use' = use
  | _ => false

/-- What the call may have created. -/
def made (c : SubscrCall τ) : Option (SubscrPtr × MobileIdentity) :=
  match c.op, c.subscr with
  | .findOrCreate imsi _, some s => some (s, imsi)
  | _, _ => none

end SubscrCall

/-- Takes minus returns. -/
def outstanding (calls : List (SubscrCall τ)) (s : SubscrPtr) (use : τ) : Int :=
  calls.countP (SubscrCall.takes s use) - calls.countP (SubscrCall.returns s use)

omit [DecidableEq τ] in
/-- The subscribers that were created, the earliest first. -/
def created (calls : List (SubscrCall τ)) : List (SubscrPtr × MobileIdentity) :=
  (calls.filterMap SubscrCall.made).reverse.dedup.reverse

/-- A put returns a token that is outstanding, and a get is for a subscriber that is in use.
A count is an `int32_t`: no call takes a token of which the subscriber has `INT32_MAX`
already, since `osmo_use_count_get_put` then refuses it. -/
def SubscrOp.Allowed (calls : List (SubscrCall τ)) : SubscrOp τ → Prop
  | .put s use => 0 < outstanding calls s use
  | .get s use => (∃ use', 0 < outstanding calls s use') ∧
      outstanding calls s use < UseCount.maxCount
  | .find imsi use | .findOrCreate imsi use =>
      ∀ e ∈ created calls, e.2 = imsi → outstanding calls e.1 use < UseCount.maxCount

def subscrStep (L : Libosmo) (u : List (SubscrCall τ) × Subscribers τ) (op : SubscrOp τ) :
    Except Crash (List (SubscrCall τ) × Subscribers τ) :=
  match op.exec L u.2 with
  | .ok (subscr, t) => .ok (u.1 ++ [⟨op, subscr⟩], t)
  | .error e => .error e

def SmlcSubscr.entry (x : SmlcSubscr τ) : SubscrPtr × MobileIdentity := (x.ptr, x.imsi)

omit [DecidableEq τ] in
def Subscribers.entries (t : Subscribers τ) : List (SubscrPtr × MobileIdentity) :=
  t.list.map SmlcSubscr.entry

/-- The store law, for the calls made so far and the subscribers that they left. -/
structure StoreLaw (L : Libosmo) (calls : List (SubscrCall τ)) (t : Subscribers τ) : Prop where
  createdOnce : ((created calls).map Prod.fst).Nodup
  order : t.entries.Sublist (created calls)
  listed : ∀ e ∈ created calls, e ∈ t.entries ↔ ∃ use, 0 < outstanding calls e.1 use
  imsis : (t.list.map SmlcSubscr.imsi).Nodup
  counts : ∀ x ∈ t.list, ∀ use, x.useCount.count use = outstanding calls x.ptr use
  inRange : ∀ x ∈ t.list, (∀ use, 0 ≤ x.useCount.count use ∧
    x.useCount.count use ≤ UseCount.maxCount) ∧ x.useCount.clampedTotal ≠ 0
  found : ∀ x ∈ t.list, ∀ use, outstanding calls x.ptr use < UseCount.maxCount →
    smlcSubscrFind L x.imsi use t = .ok (some x.ptr, t.changed x.ptr use 1) ∧
    smlcSubscrFindOrCreate L x.imsi use t = .ok (x.ptr, t.changed x.ptr use 1)
  notFound : ∀ imsi ∉ t.list.map SmlcSubscr.imsi, ∀ use,
    smlcSubscrFind L imsi use t = .ok (none, t) ∧
    smlcSubscrFindOrCreate L imsi use t
      = .ok (t.next, ⟨t.list ++ [⟨t.next, imsi, [(use, 1)]⟩], t.next + 1⟩)
  putLast : ∀ x ∈ t.list, ∀ use, outstanding calls x.ptr use = 1 →
    (∀ use' ≠ use, outstanding calls x.ptr use' = 0) →
    smlcSubscrPut x.ptr use t
      = .ok ((), { t with list := KeyedList.remove SmlcSubscr.ptr t.list x.ptr })
  putOther : ∀ x ∈ t.list, ∀ use, 0 < outstanding calls x.ptr use →
    (outstanding calls x.ptr use ≠ 1 ∨ ∃ use' ≠ use, outstanding calls x.ptr use' ≠ 0) →
    smlcSubscrPut x.ptr use t = .ok ((), t.changed x.ptr use (-1))
  putMissing : ∀ x ∈ t.list, ∀ use, outstanding calls x.ptr use ≤ 0 →
    smlcSubscrGetPut x.ptr use (-1) t = .ok (-erange, t.changed x.ptr use (-1)) ∧
    (t.changed x.ptr use (-1)).entries = t.entries ∧
    smlcSubscrPut x.ptr use t = .error (.osmoAssert .smlcSubscrPut)

/-- What every call keeps. -/
structure StoreInv (calls : List (SubscrCall τ)) (t : Subscribers τ) : Prop where
  createdOnce : ((created calls).map Prod.fst).Nodup
  createdBound : ∀ e ∈ created calls, e.1 < t.next
  order : t.entries.Sublist (created calls)
  imsis : (t.list.map SmlcSubscr.imsi).Nodup
  form : ∀ x ∈ t.list, x.useCount.WF ∧ x.useCount ≠ []
  counts : ∀ x ∈ t.list, ∀ use, x.useCount.count use = outstanding calls x.ptr use
  inRange : ∀ s use, outstanding calls s use ≤ UseCount.maxCount
  unlisted : ∀ s, (∀ x ∈ t.list, x.ptr ≠ s) → ∀ use, outstanding calls s use = 0

section History

variable {calls : List (SubscrCall τ)} {c : SubscrCall τ} {s : SubscrPtr} {use : τ}

theorem outstanding_concat : outstanding (calls ++ [c]) s use = outstanding calls s use
    + ((if c.takes s use then 1 else 0) - (if c.returns s use then 1 else 0)) := by
  simp only [outstanding, List.countP_append, List.countP_singleton, Int.natCast_add]
  split <;> split <;> simp <;> omega

/-- A call that takes one token and returns none. -/
theorem outstanding_take {p : SubscrPtr}
    (htakes : ∀ s use', c.takes s use' = decide (p = s ∧ use = use'))
    (hreturns : ∀ s use', c.returns s use' = false) (s : SubscrPtr) (use' : τ) :
    outstanding (calls ++ [c]) s use' = outstanding calls s use'
      + if s = p ∧ use' = use then 1 else 0 := by
  rw [outstanding_concat, htakes, hreturns]
  have hiff : (p = s ∧ use = use') ↔ (s = p ∧ use' = use) := and_congr eq_comm eq_comm
  simp [hiff]

omit [DecidableEq τ] in
theorem created_concat_old (h : ∀ e, c.made = some e → e ∈ created calls) :
    created (calls ++ [c]) = created calls := by
  unfold created at h ⊢
  cases hc : c.made with
  | none => simp [List.filterMap_append, hc]
  | some e =>
    have he : e ∈ (calls.filterMap SubscrCall.made).reverse := by
      simpa only [List.mem_reverse, List.mem_dedup] using h e hc
    rw [List.filterMap_append, List.filterMap_cons_some hc, List.filterMap_nil,
      List.reverse_append, List.reverse_singleton, List.singleton_append,
      List.dedup_cons_of_mem he]

omit [DecidableEq τ] in
theorem created_concat_new {e : SubscrPtr × MobileIdentity} (hc : c.made = some e)
    (h : e ∉ created calls) : created (calls ++ [c]) = created calls ++ [e] := by
  unfold created at h ⊢
  have he : e ∉ (calls.filterMap SubscrCall.made).reverse := by
    simpa only [List.mem_reverse, List.mem_dedup] using h
  rw [List.filterMap_append, List.filterMap_cons_some hc, List.filterMap_nil,
    List.reverse_append, List.reverse_singleton, List.singleton_append,
    List.dedup_cons_of_notMem he, List.reverse_cons]

end History

namespace StoreInv

variable {L : Libosmo} {calls : List (SubscrCall τ)} {t : Subscribers τ} {c : SubscrCall τ}
  {x : SmlcSubscr τ} {use : τ} {d : Int} {imsi : MobileIdentity}

theorem init : StoreInv ([] : List (SubscrCall τ)) ⟨[], 0⟩ where
  createdOnce := List.nodup_nil
  createdBound := nofun
  order := List.Sublist.slnil
  imsis := List.nodup_nil
  form := nofun
  counts := nofun
  inRange _ _ := show (0 : Int) ≤ UseCount.maxCount by decide
  unlisted _ _ _ := rfl

theorem ptrs (h : StoreInv calls t) : (t.list.map SmlcSubscr.ptr).Nodup := by
  have hsub := h.order.map Prod.fst
  rw [Subscribers.entries, List.map_map] at hsub
  exact h.createdOnce.sublist hsub

theorem entry_created (h : StoreInv calls t) (hx : x ∈ t.list) : x.entry ∈ created calls :=
  h.order.subset (List.mem_map_of_mem hx)

theorem subscrs (h : StoreInv calls t) : t.Form where
  ptrs := h.ptrs
  bound := fun x hx => h.createdBound x.entry (h.entry_created hx)
  used := h.form

theorem subscr?_eq (h : StoreInv calls t) (hx : x ∈ t.list) : t.subscr? x.ptr = some x :=
  h.subscrs.subscr?_eq hx

omit [DecidableEq τ] in
theorem entries_changed [DecidableEq τ] {p : SubscrPtr} :
    (t.changed p use d).entries = t.entries := KeyedList.map_update fun _ => rfl

theorem count_after (h : StoreInv calls t) (hx : x ∈ t.list) (use' : τ) :
    (x.useCount.change use d).count use'
      = outstanding calls x.ptr use' + if use' = use then d else 0 := by
  rw [← h.counts x hx]
  by_cases hu : use' = use
  · rw [hu, UseCount.count_change_self (h.form x hx).1.nodup]
    simp
  · rw [UseCount.count_change_ne hu]
    simp [hu]

theorem wf_after (h : StoreInv calls t) (hx : x ∈ t.list)
    (hnn : 0 ≤ outstanding calls x.ptr use + d) : (x.useCount.change use d).WF := by
  apply (h.form x hx).1.change
  rw [h.counts x hx]
  exact hnn

/-- A call that changes the tokens of a listed subscriber and leaves it one. -/
theorem changed (h : StoreInv calls t) (hx : x ∈ t.list)
    (hmade : ∀ e, c.made = some e → e ∈ created calls)
    (hout : ∀ s use', outstanding (calls ++ [c]) s use' = outstanding calls s use'
      + if s = x.ptr ∧ use' = use then d else 0)
    (hnn : 0 ≤ outstanding calls x.ptr use + d)
    (hmax : outstanding calls x.ptr use + d ≤ UseCount.maxCount)
    (hleft : ∃ use', outstanding (calls ++ [c]) x.ptr use' ≠ 0) :
    StoreInv (calls ++ [c]) (t.changed x.ptr use d) := by
  have hcre := created_concat_old hmade
  have hcount : ∀ use', (x.useCount.change use d).count use'
      = outstanding (calls ++ [c]) x.ptr use' := by
    intro use'
    rw [hout, h.count_after hx]
    simp
  have hne : x.useCount.change use d ≠ [] := by
    obtain ⟨use', hleft⟩ := hleft
    intro hnil
    apply hleft
    rw [← hcount, hnil]
    rfl
  have hmem : ∀ y ∈ (t.changed x.ptr use d).list, (y ∈ t.list ∧ y.ptr ≠ x.ptr) ∨
      y = { x with useCount := x.useCount.change use d } := by
    intro y hy
    rcases KeyedList.mem_update.mp hy with hy | ⟨z, hz, hzx, rfl⟩
    · exact .inl hy
    · right
      rw [List.inj_on_of_nodup_map h.ptrs hz hx hzx]
  refine ⟨?_, ?_, ?_, ?_, ?_, ?_, ?_, ?_⟩
  · rw [hcre]
    exact h.createdOnce
  · rw [hcre]
    exact h.createdBound
  · rw [hcre, entries_changed]
    exact h.order
  · have himsi : (t.changed x.ptr use d).list.map SmlcSubscr.imsi = t.list.map SmlcSubscr.imsi :=
      KeyedList.map_update fun _ => rfl
    rw [himsi]
    exact h.imsis
  · intro y hy
    rcases hmem y hy with ⟨hy, -⟩ | rfl
    · exact h.form y hy
    · exact ⟨h.wf_after hx hnn, hne⟩
  · intro y hy use'
    rcases hmem y hy with ⟨hy, hyx⟩ | rfl
    · rw [hout, h.counts y hy]
      simp [hyx]
    · exact hcount use'
  · intro s use'
    have hs := h.inRange s use'
    rw [hout]
    split
    · rename_i heq
      rw [heq.1, heq.2]
      exact hmax
    · omega
  · intro s hs use'
    have hptrs : (t.changed x.ptr use d).list.map SmlcSubscr.ptr = t.list.map SmlcSubscr.ptr :=
      KeyedList.map_update fun _ => rfl
    have hs' : ∀ y ∈ t.list, y.ptr ≠ s := by
      intro y hy hys
      have hmap : y.ptr ∈ (t.changed x.ptr use d).list.map SmlcSubscr.ptr :=
        hptrs ▸ List.mem_map_of_mem hy
      obtain ⟨z, hz, hzy⟩ := List.mem_map.mp hmap
      exact hs z hz (hzy.trans hys)
    rw [hout, h.unlisted s hs']
    have hsx : s ≠ x.ptr := (hs' x hx).symm
    simp [hsx]

/-- A call that returns the last token of a listed subscriber. -/
theorem removed {p : SubscrPtr} (h : StoreInv calls t) (hmade : c.made = none)
    (hout : ∀ s ≠ p, ∀ use, outstanding (calls ++ [c]) s use = outstanding calls s use)
    (hzero : ∀ use, outstanding (calls ++ [c]) p use = 0) :
    StoreInv (calls ++ [c])
      { t with list := KeyedList.remove SmlcSubscr.ptr t.list p } := by
  have hcre : created (calls ++ [c]) = created calls := by
    apply created_concat_old
    intro e he
    rw [hmade] at he
    cases he
  have hsub : (KeyedList.remove SmlcSubscr.ptr t.list p).Sublist t.list := List.filter_sublist
  refine ⟨?_, ?_, ?_, ?_, ?_, ?_, ?_, ?_⟩
  · rw [hcre]
    exact h.createdOnce
  · rw [hcre]
    exact h.createdBound
  · rw [hcre]
    exact (hsub.map SmlcSubscr.entry).trans h.order
  · exact h.imsis.sublist (hsub.map SmlcSubscr.imsi)
  · exact fun y hy => h.form y (hsub.subset hy)
  · intro y hy use'
    obtain ⟨hy, hyp⟩ := KeyedList.mem_remove.mp hy
    rw [hout y.ptr hyp, h.counts y hy]
  · intro s use'
    by_cases hsp : s = p
    · rw [hsp, hzero]
      decide
    · rw [hout s hsp]
      exact h.inRange s use'
  · intro s hs use'
    by_cases hsx : s = p
    · rw [hsx]
      exact hzero use'
    · rw [hout s hsx]
      refine h.unlisted s (fun y hy hys => ?_) use'
      exact hs y (KeyedList.mem_remove.mpr ⟨hy, hys ▸ hsx⟩) hys

/-- A call that creates a subscriber. -/
theorem appended (h : StoreInv calls t) (himsi : imsi ∉ t.list.map SmlcSubscr.imsi)
    (hmade : c.made = some (t.next, imsi))
    (hout : ∀ s use', outstanding (calls ++ [c]) s use' = outstanding calls s use'
      + if s = t.next ∧ use' = use then 1 else 0) :
    StoreInv (calls ++ [c]) ⟨t.list ++ [⟨t.next, imsi, [(use, 1)]⟩], t.next + 1⟩ := by
  have hfresh : (t.next, imsi) ∉ created calls := fun hmem =>
    Nat.lt_irrefl _ (h.createdBound _ hmem)
  have hcre := created_concat_new hmade hfresh
  have hptr : ∀ y ∈ t.list, y.ptr ≠ t.next := fun y hy => h.subscrs.fresh hy
  refine ⟨?_, ?_, ?_, ?_, ?_, ?_, ?_, ?_⟩
  · rw [hcre, List.map_append, List.nodup_append]
    refine ⟨h.createdOnce, List.nodup_singleton _, ?_⟩
    intro s hs s' hs'
    obtain ⟨e, he, rfl⟩ := List.mem_map.mp hs
    obtain rfl := List.mem_singleton.mp hs'
    exact Nat.ne_of_lt (h.createdBound e he)
  · rw [hcre]
    intro e he
    rcases List.mem_append.mp he with he | he
    · exact Nat.lt_succ_of_lt (h.createdBound e he)
    · obtain rfl := List.mem_singleton.mp he
      exact Nat.lt_succ_self _
  · rw [hcre, Subscribers.entries, List.map_append]
    exact h.order.append (List.Sublist.refl _)
  · rw [List.map_append, List.nodup_append]
    refine ⟨h.imsis, List.nodup_singleton _, ?_⟩
    intro i hi i' hi' heq
    obtain rfl := List.mem_singleton.mp hi'
    exact himsi (heq ▸ hi)
  · intro y hy
    rcases List.mem_append.mp hy with hy | hy
    · exact h.form y hy
    · obtain rfl := List.mem_singleton.mp hy
      exact ⟨⟨by simp, by simp⟩, List.cons_ne_nil _ _⟩
  · intro y hy use'
    rcases List.mem_append.mp hy with hy | hy
    · rw [hout, h.counts y hy]
      simp [hptr y hy]
    · obtain rfl := List.mem_singleton.mp hy
      rw [hout, h.unlisted t.next hptr]
      by_cases hu : use' = use
      · simp [UseCount.count, hu]
      · simp [UseCount.count, hu, Ne.symm hu]
  · intro s use'
    have hs := h.inRange s use'
    rw [hout]
    split
    · rename_i heq
      rw [heq.1, h.unlisted t.next hptr]
      decide
    · omega
  · intro s hs use'
    have hs' : ∀ y ∈ t.list, y.ptr ≠ s := fun y hy => hs y (List.mem_append_left _ hy)
    have hst : t.next ≠ s := hs _ (List.mem_append_right _ (List.mem_singleton.mpr rfl))
    rw [hout, h.unlisted s hs']
    simp [hst.symm]

/-- A call that finds nothing. -/
theorem unchanged (h : StoreInv calls t) (hmade : c.made = none)
    (hout : ∀ s use', outstanding (calls ++ [c]) s use' = outstanding calls s use') :
    StoreInv (calls ++ [c]) t := by
  have hcre : created (calls ++ [c]) = created calls := by
    apply created_concat_old
    intro e he
    rw [hmade] at he
    cases he
  refine ⟨hcre ▸ h.createdOnce, hcre ▸ h.createdBound, hcre ▸ h.order, h.imsis, h.form, ?_, ?_, ?_⟩
  · intro y hy use'
    rw [hout, h.counts y hy]
  · intro s use'
    rw [hout]
    exact h.inRange s use'
  · intro s hs use'
    rw [hout, h.unlisted s hs]

section Calls

variable (hcmp : ∀ a b, L.mobileIdentityCmp a b = 0 ↔ a = b)
include hcmp

omit [DecidableEq τ] in
theorem byImsi_eq_lookup : t.byImsi L imsi = KeyedList.lookup SmlcSubscr.imsi t.list imsi := by
  unfold Subscribers.byImsi KeyedList.lookup
  simp only [hcmp]

theorem byImsi_some (h : StoreInv calls t) (hx : x ∈ t.list) : t.byImsi L x.imsi = some x :=
  (byImsi_eq_lookup hcmp).trans (KeyedList.lookup_of_mem h.imsis hx)

omit [DecidableEq τ] in
theorem byImsi_none (himsi : imsi ∉ t.list.map SmlcSubscr.imsi) : t.byImsi L imsi = none := by
  refine (byImsi_eq_lookup hcmp).trans (KeyedList.lookup_eq_none_iff.mpr fun x hx heq => ?_)
  exact himsi (heq ▸ List.mem_map_of_mem hx)

theorem find_some (h : StoreInv calls t) (hx : x ∈ t.list) :
    smlcSubscrFind L x.imsi use t = .ok (some x.ptr, t.changed x.ptr use 1) :=
  smlcSubscrFind_listed h.subscrs (byImsi_some hcmp h hx)

theorem findOrCreate_some (h : StoreInv calls t) (hx : x ∈ t.list) :
    smlcSubscrFindOrCreate L x.imsi use t = .ok (x.ptr, t.changed x.ptr use 1) :=
  smlcSubscrFindOrCreate_listed h.subscrs (byImsi_some hcmp h hx)

theorem find_none (himsi : imsi ∉ t.list.map SmlcSubscr.imsi) :
    smlcSubscrFind L imsi use t = .ok (none, t) :=
  smlcSubscrFind_new (byImsi_none hcmp himsi)

theorem findOrCreate_none (h : StoreInv calls t) (himsi : imsi ∉ t.list.map SmlcSubscr.imsi) :
    smlcSubscrFindOrCreate L imsi use t
      = .ok (t.next, ⟨t.list ++ [⟨t.next, imsi, [(use, 1)]⟩], t.next + 1⟩) :=
  smlcSubscrFindOrCreate_new h.subscrs (byImsi_none hcmp himsi)

end Calls

section Puts

theorem put_last (h : StoreInv calls t) (hx : x ∈ t.list)
    (hone : outstanding calls x.ptr use = 1)
    (hother : ∀ use' ≠ use, outstanding calls x.ptr use' = 0) :
    smlcSubscrPut x.ptr use t
      = .ok ((), { t with list := KeyedList.remove SmlcSubscr.ptr t.list x.ptr }) := by
  have hzero : ∀ use', (x.useCount.change use (-1)).count use' = 0 := by
    intro use'
    rw [h.count_after hx]
    by_cases hu : use' = use
    · simp [hu, hone]
    · simp [hu, hother use' hu]
  have htot := (h.wf_after (d := -1) hx (by omega)).total_eq_zero_iff.mpr hzero
  rw [UseCount.total_change] at htot
  exact smlcSubscrPut_free (h.subscr?_eq hx) (Int.le_of_eq (hzero use).symm) (by omega)

theorem put_other (h : StoreInv calls t) (hx : x ∈ t.list)
    (hpos : 0 < outstanding calls x.ptr use)
    (hmore : outstanding calls x.ptr use ≠ 1 ∨ ∃ use' ≠ use, outstanding calls x.ptr use' ≠ 0) :
    smlcSubscrPut x.ptr use t = .ok ((), t.changed x.ptr use (-1)) := by
  have hleft : ∃ use', (x.useCount.change use (-1)).count use' ≠ 0 := by
    rcases hmore with hmore | ⟨use', hu, hmore⟩
    · refine ⟨use, ?_⟩
      rw [h.count_after hx, if_pos rfl]
      omega
    · refine ⟨use', ?_⟩
      rw [h.count_after hx, if_neg hu]
      omega
  have htot : (x.useCount.change use (-1)).total ≠ 0 := by
    intro hz
    obtain ⟨use', hu⟩ := hleft
    exact hu ((h.wf_after hx (by omega)).total_eq_zero_iff.mp hz use')
  rw [UseCount.total_change] at htot
  refine smlcSubscrPut_keep (h.subscr?_eq hx) ?_ (by omega)
  rw [h.count_after hx, if_pos rfl]
  omega

/-- A token that is not outstanding is counted, but the callback refuses it. -/
theorem put_missing (h : StoreInv calls t) (hx : x ∈ t.list)
    (hno : outstanding calls x.ptr use ≤ 0) :
    smlcSubscrGetPut x.ptr use (-1) t = .ok (-erange, t.changed x.ptr use (-1)) := by
  have hx' : (t.changed x.ptr use (-1)).subscr? x.ptr = some _ :=
    Subscribers.subscr?_changed (h.subscr?_eq hx)
  have hneg : (x.useCount.change use (-1)).count use < 0 := by
    rw [h.count_after hx, if_pos rfl]
    omega
  rw [smlcSubscrGetPut, Prog.bind_ok (Prog.modify_apply _ _)]
  apply (Prog.bind_ok (derefSubscr_ok hx')).trans
  dsimp only
  rw [if_pos hneg]
  rfl

end Puts

theorem outstanding_nonneg (h : StoreInv calls t) (s : SubscrPtr) (use : τ) :
    0 ≤ outstanding calls s use := by
  by_cases hs : ∃ x ∈ t.list, x.ptr = s
  · obtain ⟨x, hx, rfl⟩ := hs
    rw [← h.counts x hx]
    exact (h.form x hx).1.count_nonneg use
  · have hz := h.unlisted s (fun x hx hxs => hs ⟨x, hx, hxs⟩) use
    omega

/-- A subscriber with a token outstanding is listed. -/
theorem listed_of_pos (h : StoreInv calls t) {s : SubscrPtr} (hpos : 0 < outstanding calls s use) :
    ∃ x ∈ t.list, x.ptr = s := by
  by_contra hno
  have hz := h.unlisted s (fun x hx hxs => hno ⟨x, hx, hxs⟩) use
  omega

theorem pos_of_listed (h : StoreInv calls t) (hx : x ∈ t.list) :
    ∃ use, 0 < outstanding calls x.ptr use := by
  obtain ⟨hwf, hne⟩ := h.form x hx
  have hnz : ¬ ∀ use, x.useCount.count use = 0 := fun hall => hne (hwf.eq_nil_iff.mpr hall)
  obtain ⟨use, hu⟩ := not_forall.mp hnz
  refine ⟨use, ?_⟩
  have hnn := hwf.count_nonneg use
  rw [← h.counts x hx]
  omega

theorem law (h : StoreInv calls t) (hcmp : ∀ a b, L.mobileIdentityCmp a b = 0 ↔ a = b) :
    StoreLaw L calls t where
  createdOnce := h.createdOnce
  order := h.order
  listed := by
    intro e he
    constructor
    · intro hmem
      obtain ⟨x, hx, rfl⟩ := List.mem_map.mp hmem
      exact h.pos_of_listed hx
    · rintro ⟨use, hpos⟩
      obtain ⟨x, hx, hxe⟩ := h.listed_of_pos hpos
      have hmem : x.entry ∈ t.entries := List.mem_map_of_mem hx
      rw [← List.inj_on_of_nodup_map h.createdOnce (h.order.subset hmem) he hxe]
      exact hmem
  imsis := h.imsis
  counts := h.counts
  inRange := by
    intro x hx
    obtain ⟨hwf, hne⟩ := h.form x hx
    refine ⟨fun use => ⟨hwf.count_nonneg use, ?_⟩, ?_⟩
    · rw [h.counts x hx]
      exact h.inRange x.ptr use
    · have htot := hwf.total_pos hne
      rw [hwf.clampedTotal_eq]
      unfold UseCount.maxCount
      omega
  found x hx use _ := ⟨find_some hcmp h hx, findOrCreate_some hcmp h hx⟩
  notFound imsi himsi use := ⟨find_none hcmp himsi, findOrCreate_none hcmp h himsi⟩
  putLast x hx use := h.put_last hx
  putOther x hx use := h.put_other hx
  putMissing := by
    intro x hx use hno
    have hgp := h.put_missing hx hno
    refine ⟨hgp, entries_changed, ?_⟩
    rw [smlcSubscrPut, Prog.bind_ok hgp]
    rfl

end StoreInv

/-- A call that takes a token of a listed subscriber. -/
theorem StoreInv.taken {calls : List (SubscrCall τ)} {t : Subscribers τ} {c : SubscrCall τ}
    {x : SmlcSubscr τ} {use : τ} (h : StoreInv calls t) (hx : x ∈ t.list)
    (hmax : outstanding calls x.ptr use < UseCount.maxCount)
    (hmade : ∀ e, c.made = some e → e = x.entry)
    (htakes : ∀ s use', c.takes s use' = decide (x.ptr = s ∧ use = use'))
    (hreturns : ∀ s use', c.returns s use' = false) :
    StoreInv (calls ++ [c]) (t.changed x.ptr use 1) := by
  have hout : ∀ s use', outstanding (calls ++ [c]) s use' = outstanding calls s use'
      + if s = x.ptr ∧ use' = use then 1 else 0 := outstanding_take htakes hreturns
  have hnn := h.outstanding_nonneg x.ptr use
  refine h.changed hx ?_ hout (by omega) (by omega) ⟨use, ?_⟩
  · intro e he
    rw [hmade e he]
    exact h.entry_created hx
  · rw [hout, if_pos ⟨rfl, rfl⟩]
    omega

theorem StoreInv.step (L : Libosmo) (hcmp : ∀ a b, L.mobileIdentityCmp a b = 0 ↔ a = b)
    {u : List (SubscrCall τ) × Subscribers τ} {op : SubscrOp τ} (h : StoreInv u.1 u.2)
    (hop : op.Allowed u.1) : ∃ u', subscrStep L u op = .ok u' ∧ StoreInv u'.1 u'.2 ∧
      u'.1.map SubscrCall.op = u.1.map SubscrCall.op ++ [op] := by
  obtain ⟨calls, t⟩ := u
  have hdone : ∀ {o : Option SubscrPtr} {t' : Subscribers τ}, op.exec L t = .ok (o, t') →
      StoreInv (calls ++ [⟨op, o⟩]) t' → ∃ u', subscrStep L (calls, t) op = .ok u' ∧
        StoreInv u'.1 u'.2 ∧ u'.1.map SubscrCall.op = calls.map SubscrCall.op ++ [op] := by
    intro o t' hex hinv
    refine ⟨(calls ++ [⟨op, o⟩], t'), ?_, hinv, by simp⟩
    simp only [subscrStep, hex]
  cases op with
  | findOrCreate imsi use =>
    by_cases himsi : imsi ∈ t.list.map SmlcSubscr.imsi
    · obtain ⟨x, hx, rfl⟩ := List.mem_map.mp himsi
      refine hdone (Prog.bind_ok (StoreInv.findOrCreate_some hcmp h hx))
        (StoreInv.taken h hx (hop x.entry (h.entry_created hx) rfl) ?_ ?_ fun _ _ => rfl)
      · intro e he
        exact (Option.some.inj he).symm
      · intro s use'
        simp [SubscrCall.takes]
    · refine hdone (Prog.bind_ok (StoreInv.findOrCreate_none hcmp h himsi))
        (StoreInv.appended h himsi rfl (outstanding_take ?_ fun _ _ => rfl))
      intro s use'
      simp [SubscrCall.takes]
  | find imsi use =>
    by_cases himsi : imsi ∈ t.list.map SmlcSubscr.imsi
    · obtain ⟨x, hx, rfl⟩ := List.mem_map.mp himsi
      refine hdone (StoreInv.find_some hcmp h hx)
        (StoreInv.taken h hx (hop x.entry (h.entry_created hx) rfl) nofun ?_ fun _ _ => rfl)
      intro s use'
      simp [SubscrCall.takes]
    · refine hdone (StoreInv.find_none hcmp himsi) (StoreInv.unchanged h rfl fun s use' => ?_)
      rw [outstanding_concat]
      simp [SubscrCall.takes, SubscrCall.returns]
  | get s use =>
    obtain ⟨⟨use', hpos⟩, hmax⟩ := hop
    obtain ⟨x, hx, rfl⟩ := h.listed_of_pos hpos
    refine hdone (Prog.bind_ok (h.subscrs.get_ok hx))
      (StoreInv.taken h hx hmax nofun ?_ fun _ _ => rfl)
    intro s use'
    simp [SubscrCall.takes]
  | put s use =>
    have hpos : 0 < outstanding calls s use := hop
    obtain ⟨x, hx, rfl⟩ := h.listed_of_pos hpos
    have hout : ∀ s use', outstanding (calls ++ [⟨.put x.ptr use, none⟩]) s use'
        = outstanding calls s use' + if s = x.ptr ∧ use' = use then -1 else 0 := by
      intro s use'
      rw [outstanding_concat]
      by_cases hs : s = x.ptr ∧ use' = use
      · simp [SubscrCall.takes, SubscrCall.returns, hs]
      · have hs' : ¬ (x.ptr = s ∧ use = use') := fun hs' => hs ⟨hs'.1.symm, hs'.2.symm⟩
        simp [SubscrCall.takes, SubscrCall.returns, hs, hs']
    by_cases hlast : outstanding calls x.ptr use = 1 ∧
        ∀ use' ≠ use, outstanding calls x.ptr use' = 0
    · refine hdone (Prog.bind_ok (h.put_last hx hlast.1 hlast.2)) (StoreInv.removed h rfl ?_ ?_)
      · intro s hs use'
        rw [hout]
        simp [hs]
      · intro use'
        rw [hout]
        by_cases hu : use' = use
        · simp [hu, hlast.1]
        · simp [hu, hlast.2 use' hu]
    · have hmore : outstanding calls x.ptr use ≠ 1 ∨
          ∃ use' ≠ use, outstanding calls x.ptr use' ≠ 0 := by
        by_contra hno
        push Not at hno
        exact hlast hno
      refine hdone (Prog.bind_ok (h.put_other hx hpos hmore))
        (StoreInv.changed h hx nofun hout (by omega) ?_ ?_)
      · have hmax : outstanding calls x.ptr use ≤ UseCount.maxCount := h.inRange x.ptr use
        omega
      rcases hmore with hmore | ⟨use', hu, hmore⟩
      · refine ⟨use, ?_⟩
        rw [hout, if_pos ⟨rfl, rfl⟩]
        omega
      · refine ⟨use', ?_⟩
        rw [hout, if_neg fun hu' => hu hu'.2]
        omega

/-- The calls of `ops` all return, and leave the subscribers as the store law has it. -/
theorem subscrStore_law (L : Libosmo) (hcmp : ∀ a b, L.mobileIdentityCmp a b = 0 ↔ a = b)
    (ops : List (SubscrOp τ))
    (hops : Meets (subscrStep L) (fun u op => op.Allowed u.1) ([], ⟨[], 0⟩) ops) :
    ∃ calls t, run (subscrStep L) ([], ⟨[], 0⟩) ops = .ok (calls, t) ∧
      calls.map SubscrCall.op = ops ∧ StoreLaw L calls t := by
  obtain ⟨⟨calls, t⟩, hrun⟩ := run_total_of_meets (I := fun u => StoreInv u.1 u.2)
    (fun u op hI hop => by
      obtain ⟨u', hstep, hI', -⟩ := hI.step L hcmp hop
      exact ⟨u', hstep, hI'⟩)
    StoreInv.init hops
  have hinv : StoreInv calls t ∧ calls.map SubscrCall.op = ops := by
    refine run_history (H := fun ops u => StoreInv u.1 u.2 ∧ u.1.map SubscrCall.op = ops)
      ⟨StoreInv.init, rfl⟩ ?_ hops hrun
    rintro ops u op u' - ⟨hI, hmap⟩ hop hstep
    obtain ⟨u'', hstep', hI', hmap'⟩ := hI.step L hcmp hop
    cases hstep.symm.trans hstep'
    exact ⟨hI', by rw [hmap', hmap]⟩
  exact ⟨calls, t, hrun, hinv.2, hinv.1.law hcmp⟩

/-- Two subscribers are created, and the first one loses its last token. -/
theorem subscrStore_law_two :
    ∃ calls t, run (subscrStep Sample.libosmo) ([], ⟨[], 0⟩)
        [.findOrCreate Sample.imsiA Use.lbConn, .find Sample.imsiA .smlcLocReqStart,
          .findOrCreate Sample.imsiB .lbConn, .get 0 .lbConn, .put 0 .smlcLocReqStart,
          .put 0 .lbConn, .put 0 .lbConn] = .ok (calls, t) ∧
      calls.map SubscrCall.op = [.findOrCreate Sample.imsiA Use.lbConn,
        .find Sample.imsiA .smlcLocReqStart, .findOrCreate Sample.imsiB .lbConn, .get 0 .lbConn,
        .put 0 .smlcLocReqStart, .put 0 .lbConn, .put 0 .lbConn] ∧
      StoreLaw Sample.libosmo calls t := by
  apply subscrStore_law Sample.libosmo (fun a b => by simp [Sample.libosmo]) _
  refine ⟨show ∀ e ∈ created _, _ → _ by decide +kernel, fun u hu => ?_⟩
  cases hu
  refine ⟨show ∀ e ∈ created _, _ → _ by decide +kernel, fun u hu => ?_⟩
  cases hu
  refine ⟨show ∀ e ∈ created _, _ → _ by decide +kernel, fun u hu => ?_⟩
  cases hu
  refine ⟨⟨⟨.lbConn, by decide +kernel⟩, show outstanding _ _ _ < _ by decide +kernel⟩,
    fun u hu => ?_⟩
  cases hu
  refine ⟨show 0 < outstanding _ _ _ by decide +kernel, fun u hu => ?_⟩
  cases hu
  refine ⟨show 0 < outstanding _ _ _ by decide +kernel, fun u hu => ?_⟩
  cases hu
  exact ⟨show 0 < outstanding _ _ _ by decide +kernel, fun _ _ => trivial⟩

end OsmoSmlc
