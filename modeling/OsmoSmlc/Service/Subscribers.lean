import OsmoSmlc.Service.Invariant

/-! The subscriber store of the process follows the subscribers of the service: a
returned token frees a subscriber exactly when no session is bound to it any more. -/
namespace OsmoSmlc
open Osmo

section Tokens

variable {τ : Type} [DecidableEq τ] {t : Subscribers τ} {p : SubscrPtr} {x : SmlcSubscr τ}
  {use : τ} {d : Int}

/-- The subscribers after one of them changed its use count by `d`. -/
def Subscribers.changed (t : Subscribers τ) (p : SubscrPtr) (use : τ) (d : Int) :
    Subscribers τ :=
  t.upd p fun x => { x with useCount := x.useCount.change use d }

theorem Subscribers.subscr?_changed (hx : t.subscr? p = some x) :
    (t.changed p use d).subscr? p = some { x with useCount := x.useCount.change use d } := by
  have hx' : KeyedList.lookup SmlcSubscr.ptr t.list p = some x := hx
  unfold Subscribers.subscr? Subscribers.changed Subscribers.upd
  rw [KeyedList.lookup_update_self, hx']
  · rfl
  · exact fun _ => rfl

omit [DecidableEq τ] in
theorem derefSubscr_ok (hx : t.subscr? p = some x) : derefSubscr p t = .ok (x, t) :=
  Prog.deref_some (f := fun t : Subscribers τ => t.subscr? p) hx

theorem smlcSubscrUseCb_keep (hx : t.subscr? p = some x) (hc : 0 ≤ x.useCount.count use)
    (ht : x.useCount.total ≠ 0) : smlcSubscrUseCb p use t = .ok (0, t) := by
  rw [smlcSubscrUseCb, Prog.bind_ok (derefSubscr_ok hx)]
  have hc' : ¬ x.useCount.count use < 0 := by omega
  simp [hc', ht]

theorem smlcSubscrUseCb_free (hx : t.subscr? p = some x) (hc : 0 ≤ x.useCount.count use)
    (ht : x.useCount.total = 0) :
    smlcSubscrUseCb p use t
      = .ok (0, { t with list := KeyedList.remove SmlcSubscr.ptr t.list p }) := by
  rw [smlcSubscrUseCb, Prog.bind_ok (derefSubscr_ok hx)]
  have hc' : ¬ x.useCount.count use < 0 := by omega
  simp [hc', ht, smlcSubscrFree, Prog.bind_apply]

theorem smlcSubscrGet_keep (hx : t.subscr? p = some x)
    (hc : 0 ≤ (x.useCount.change use 1).count use) (ht : x.useCount.total + 1 ≠ 0) :
    smlcSubscrGet p use t = .ok ((), t.changed p use 1) := by
  have hx' : (t.changed p use 1).subscr? p = some _ := Subscribers.subscr?_changed hx
  have hcb := smlcSubscrUseCb_keep hx' hc (by simpa using ht)
  have hgp : smlcSubscrGetPut p use 1 t = .ok (0, t.changed p use 1) := by
    rw [smlcSubscrGetPut, Prog.bind_ok (Prog.modify_apply _ _)]
    exact hcb
  rw [smlcSubscrGet, Prog.bind_ok hgp]
  rfl

theorem smlcSubscrPut_keep (hx : t.subscr? p = some x)
    (hc : 0 ≤ (x.useCount.change use (-1)).count use) (ht : x.useCount.total - 1 ≠ 0) :
    smlcSubscrPut p use t = .ok ((), t.changed p use (-1)) := by
  have hx' : (t.changed p use (-1)).subscr? p = some _ := Subscribers.subscr?_changed hx
  have htot : (x.useCount.change use (-1)).total ≠ 0 := by
    rw [UseCount.total_change]
    omega
  have hcb := smlcSubscrUseCb_keep hx' hc htot
  have hgp : smlcSubscrGetPut p use (-1) t = .ok (0, t.changed p use (-1)) := by
    rw [smlcSubscrGetPut, Prog.bind_ok (Prog.modify_apply _ _)]
    exact hcb
  rw [smlcSubscrPut, Prog.bind_ok hgp]
  rfl

/-- The last token returned unlinks the subscriber. -/
theorem smlcSubscrPut_free (hx : t.subscr? p = some x)
    (hc : 0 ≤ (x.useCount.change use (-1)).count use) (ht : x.useCount.total = 1) :
    smlcSubscrPut p use t
      = .ok ((), { t with list := KeyedList.remove SmlcSubscr.ptr t.list p }) := by
  have hx' : (t.changed p use (-1)).subscr? p = some _ := Subscribers.subscr?_changed hx
  have hcb := smlcSubscrUseCb_free hx' hc (by simp [ht])
  have hrem : KeyedList.remove SmlcSubscr.ptr (t.changed p use (-1)).list p
      = KeyedList.remove SmlcSubscr.ptr t.list p := KeyedList.remove_update fun _ => rfl
  have hgp : smlcSubscrGetPut p use (-1) t
      = .ok (0, { t with list := KeyedList.remove SmlcSubscr.ptr t.list p }) := by
    rw [smlcSubscrGetPut, Prog.bind_ok (Prog.modify_apply _ _)]
    apply hcb.trans
    rw [hrem]
    rfl
  rw [smlcSubscrPut, Prog.bind_ok hgp]
  rfl

/-- The subscribers are distinct objects, each of them in use. -/
structure Subscribers.Form (t : Subscribers τ) : Prop where
  ptrs : (t.list.map SmlcSubscr.ptr).Nodup
  bound : ∀ x ∈ t.list, x.ptr < t.next
  used : ∀ x ∈ t.list, x.useCount.WF ∧ x.useCount ≠ []

omit [DecidableEq τ] in
theorem Subscribers.Form.subscr?_eq (h : t.Form) (hx : x ∈ t.list) : t.subscr? x.ptr = some x :=
  KeyedList.lookup_of_mem h.ptrs hx

theorem Subscribers.Form.get_ok (h : t.Form) (hx : x ∈ t.list) :
    smlcSubscrGet x.ptr use t = .ok ((), t.changed x.ptr use 1) := by
  obtain ⟨hwf, hne⟩ := h.used x hx
  have hc := hwf.count_nonneg use
  have ht := hwf.total_pos hne
  refine smlcSubscrGet_keep (h.subscr?_eq hx) ?_ (by omega)
  rw [UseCount.count_change_self hwf.nodup]
  omega

section FindOrCreate

variable {L : Libosmo} {imsi : MobileIdentity}

theorem smlcSubscrFind_listed (h : t.Form) (hb : t.byImsi L imsi = some x) :
    smlcSubscrFind L imsi use t = .ok (some x.ptr, t.changed x.ptr use 1) := by
  rw [smlcSubscrFind, Prog.bind_ok (Prog.read_apply _ _), hb]
  dsimp only
  rw [Prog.bind_ok (h.get_ok (List.mem_of_find?_eq_some hb))]
  rfl

theorem smlcSubscrFindOrCreate_listed (h : t.Form) (hb : t.byImsi L imsi = some x) :
    smlcSubscrFindOrCreate L imsi use t = .ok (x.ptr, t.changed x.ptr use 1) := by
  rw [smlcSubscrFindOrCreate, Prog.bind_ok (smlcSubscrFind_listed h hb)]
  rfl

theorem smlcSubscrFind_new (hb : t.byImsi L imsi = none) :
    smlcSubscrFind L imsi use t = .ok (none, t) := by
  rw [smlcSubscrFind, Prog.bind_ok (Prog.read_apply _ _), hb]
  rfl

/-- A subscriber that has just been listed, and not been used yet. -/
def Subscribers.alloc (t : Subscribers τ) (imsi : MobileIdentity) : Subscribers τ :=
  ⟨t.list ++ [⟨t.next, imsi, []⟩], t.next + 1⟩

omit [DecidableEq τ] in
theorem Subscribers.Form.fresh (h : t.Form) (hx : x ∈ t.list) : x.ptr ≠ t.next :=
  Nat.ne_of_lt (h.bound x hx)

omit [DecidableEq τ] in
theorem Subscribers.Form.subscr?_append (h : t.Form) {u : UseCount τ} {q : SubscrPtr} :
    (Subscribers.mk (t.list ++ [⟨t.next, imsi, u⟩]) q).subscr? t.next
      = some ⟨t.next, imsi, u⟩ := by
  have hnone : t.list.find? (fun y => y.ptr = t.next) = none :=
    KeyedList.lookup_eq_none_iff.mpr fun y hy => h.fresh hy
  unfold Subscribers.subscr? KeyedList.lookup
  rw [List.find?_append, hnone]
  simp

theorem Subscribers.Form.changed_alloc (h : t.Form) : (t.alloc imsi).changed t.next use 1
    = ⟨t.list ++ [⟨t.next, imsi, [(use, 1)]⟩], t.next + 1⟩ := by
  simp only [Subscribers.alloc, Subscribers.changed, Subscribers.upd, KeyedList.update,
    List.map_append]
  congr 2
  · exact KeyedList.update_of_forall_ne fun y hy => h.fresh hy
  · simp [UseCount.change]

theorem smlcSubscrFindOrCreate_alloc (h : t.Form) (hb : t.byImsi L imsi = none) :
    smlcSubscrFindOrCreate L imsi use t
      = .ok (t.next, (t.alloc imsi).changed t.next use 1) := by
  have hget : smlcSubscrGet t.next use (t.alloc imsi)
      = .ok ((), (t.alloc imsi).changed t.next use 1) :=
    smlcSubscrGet_keep h.subscr?_append (by simp [UseCount.change, UseCount.count]) (by simp)
  rw [smlcSubscrFindOrCreate, Prog.bind_ok (smlcSubscrFind_new hb)]
  dsimp only
  refine (Prog.bind_ok (Prog.act_apply _ _)).trans ?_
  exact (Prog.bind_ok hget).trans rfl

theorem smlcSubscrFindOrCreate_new (h : t.Form) (hb : t.byImsi L imsi = none) :
    smlcSubscrFindOrCreate L imsi use t
      = .ok (t.next, ⟨t.list ++ [⟨t.next, imsi, [(use, 1)]⟩], t.next + 1⟩) := by
  rw [smlcSubscrFindOrCreate_alloc h hb, h.changed_alloc]

/-- A subscriber that is found or created and put back at once leaves no trace in the list. -/
theorem smlcSubscrFindOrCreate_put (h : t.Form) (imsi : MobileIdentity) (use : τ) :
    ∃ p t' t'', smlcSubscrFindOrCreate L imsi use t = .ok (p, t') ∧
      smlcSubscrPut p use t' = .ok ((), t'') ∧ t''.list = t.list ∧
      ∀ x ∈ t.list, x.ptr = p → L.mobileIdentityCmp x.imsi imsi = 0 := by
  cases hb : t.byImsi L imsi with
  | some x =>
    have hx := List.mem_of_find?_eq_some hb
    obtain ⟨hwf, hne⟩ := h.used x hx
    have hx' : (t.changed x.ptr use 1).subscr? x.ptr = some _ :=
      Subscribers.subscr?_changed (h.subscr?_eq hx)
    have hc := hwf.count_nonneg use
    have ht := hwf.total_pos hne
    have hput : smlcSubscrPut x.ptr use (t.changed x.ptr use 1)
        = .ok ((), (t.changed x.ptr use 1).changed x.ptr use (-1)) := by
      refine smlcSubscrPut_keep hx' ?_ ?_
      · dsimp only
        rw [hwf.change_put_get]
        exact hc
      · rw [UseCount.total_change]
        omega
    refine ⟨_, _, _, smlcSubscrFindOrCreate_listed h hb, hput, ?_, ?_⟩
    · have hlist : ((t.changed x.ptr use 1).changed x.ptr use (-1)).list
          = KeyedList.update SmlcSubscr.ptr t.list x.ptr fun y =>
            { y with useCount := (y.useCount.change use 1).change use (-1) } :=
        KeyedList.update_update fun _ => rfl
      rw [hlist]
      apply KeyedList.update_of_forall_eq
      intro y hy _
      rw [(h.used y hy).1.change_put_get]
    · intro z hz hzx
      rw [List.inj_on_of_nodup_map h.ptrs hz hx hzx]
      simpa using List.find?_some hb
  | none =>
    refine ⟨_, _, _, smlcSubscrFindOrCreate_new h hb,
      smlcSubscrPut_free h.subscr?_append ?_ ?_, ?_, fun z hz hzn => absurd hzn (h.fresh hz)⟩
    · simp [UseCount.change]
    · simp [UseCount.total]
    · have hrem : KeyedList.remove SmlcSubscr.ptr t.list t.next = t.list :=
        KeyedList.remove_of_forall_ne fun y hy => h.fresh hy
      simp only [KeyedList.remove, List.filter_append] at hrem ⊢
      rw [hrem]
      simp

end FindOrCreate

end Tokens

namespace Service

variable {L : Libosmo} {a : Service} {s : Session} {p : SubscrPtr} {x : Subscr} {n : Net}

theorem subscr?_world (h : a.Linked) (hx : x ∈ a.subscrs) :
    a.world.subscrs.subscr? x.ptr = some (x.smlcSubscr a.sessions) := by
  have hx' : KeyedList.lookup (SmlcSubscr.ptr ∘ Subscr.smlcSubscr a.sessions) a.subscrs x.ptr
      = some x := KeyedList.lookup_of_mem h.subscrPtrs hx
  unfold Service.world Subscribers.subscr?
  rw [KeyedList.lookup_map, hx']
  rfl

theorem changed_world (u : UseCount Use → UseCount Use) (sessions sessions' : List Session)
    (subscrs : List Subscr) {q : SubscrPtr}
    (hself : u [(.lbConn, (refs sessions p : Int))] = [(.lbConn, (refs sessions' p : Int))])
    (hother : ∀ x ∈ subscrs, x.ptr ≠ p → refs sessions x.ptr = refs sessions' x.ptr) :
    (Subscribers.mk (subscrs.map (Subscr.smlcSubscr sessions)) q).upd p
        (fun x => { x with useCount := u x.useCount })
      = ⟨subscrs.map (Subscr.smlcSubscr sessions'), q⟩ := by
  simp only [Subscribers.upd, KeyedList.update, List.map_map, Subscribers.mk.injEq, and_true]
  apply List.map_congr_left
  intro x hx
  by_cases hp : x.ptr = p
  · simp [Subscr.smlcSubscr, hp, hself]
  · simp [Subscr.smlcSubscr, hp, ← hother x hx hp]

theorem refs_remove_other (h : a.Linked) (hs : s ∈ a.sessions) (hp : s.subscr ≠ some p) :
    refs a.sessions p = refs (KeyedList.remove Session.conn a.sessions s.conn) p := by
  have hr := refs_remove (p := p) h.conns hs
  simpa [hp] using hr

theorem refs_remove_own (h : a.Linked) (hs : s ∈ a.sessions) (hp : s.subscr = some p) :
    refs a.sessions p = refs (KeyedList.remove Session.conn a.sessions s.conn) p + 1 := by
  have hr := refs_remove (p := p) h.conns hs
  simpa [hp] using hr

/-- Where the last session of a subscriber ends, the subscriber goes with it. -/
theorem drop_subscrs_last (h : a.WF) (hs : s ∈ a.sessions) (hx : s.subscr = some x.ptr)
    (hone : refs a.sessions x.ptr = 1) : (a.drop s n).world.subscrs =
      ⟨KeyedList.remove SmlcSubscr.ptr a.world.subscrs.list x.ptr, a.nextSubscr⟩ := by
  have hne : ∀ y ∈ a.subscrs, y.ptr ≠ x.ptr → s.subscr ≠ some y.ptr := by
    intro y _ hyx heq
    rw [hx] at heq
    exact hyx (Option.some.inj heq).symm
  have hown := refs_remove_own h.toLinked hs hx
  have hgc : a.subscrs.filter (fun y => 0 < refs
        (KeyedList.remove Session.conn a.sessions s.conn) y.ptr)
      = KeyedList.remove Subscr.ptr a.subscrs x.ptr := by
    apply List.filter_congr
    intro y hy
    by_cases hyx : y.ptr = x.ptr
    · have h0 : refs (KeyedList.remove Session.conn a.sessions s.conn) x.ptr = 0 := by omega
      simp [hyx, h0]
    · have hpos := h.subscrUsed y hy
      rw [refs_remove_other h.toLinked hs (hne y hy hyx)] at hpos
      simp [hyx, hpos]
  have hmap : (KeyedList.remove Subscr.ptr a.subscrs x.ptr).map
        (Subscr.smlcSubscr (KeyedList.remove Session.conn a.sessions s.conn))
      = (KeyedList.remove Subscr.ptr a.subscrs x.ptr).map (Subscr.smlcSubscr a.sessions) := by
    apply List.map_congr_left
    intro y hy
    obtain ⟨hy, hyx⟩ := KeyedList.mem_remove.mp hy
    simp [Subscr.smlcSubscr, refs_remove_other h.toLinked hs (hne y hy hyx)]
  have hrem : KeyedList.remove SmlcSubscr.ptr (a.subscrs.map (Subscr.smlcSubscr a.sessions)) x.ptr
      = (KeyedList.remove (SmlcSubscr.ptr ∘ Subscr.smlcSubscr a.sessions) a.subscrs x.ptr).map
        (Subscr.smlcSubscr a.sessions) := KeyedList.remove_map _ _
  simp only [Service.world, Service.drop, Service.gc, hgc, hmap, hrem]
  rfl

/-- Where other sessions are bound to the same subscriber, it only loses a token. -/
theorem drop_subscrs_keep (h : a.WF) (hs : s ∈ a.sessions) (hx : s.subscr = some x.ptr)
    (hmore : 1 < refs a.sessions x.ptr) :
    (a.drop s n).world.subscrs = a.world.subscrs.changed x.ptr .lbConn (-1) := by
  have hne : ∀ y ∈ a.subscrs, y.ptr ≠ x.ptr → s.subscr ≠ some y.ptr := by
    intro y _ hyx heq
    rw [hx] at heq
    exact hyx (Option.some.inj heq).symm
  have hown := refs_remove_own h.toLinked hs hx
  have hgc : a.subscrs.filter (fun y => 0 < refs
      (KeyedList.remove Session.conn a.sessions s.conn) y.ptr) = a.subscrs := by
    apply List.filter_eq_self.mpr
    intro y hy
    have hpos := h.subscrUsed y hy
    by_cases hyx : y.ptr = x.ptr
    · rw [hyx]
      exact decide_eq_true (by omega)
    · rw [refs_remove_other h.toLinked hs (hne y hy hyx)] at hpos
      exact decide_eq_true hpos
  have hchg := changed_world (UseCount.change .lbConn (-1)) a.sessions
    (KeyedList.remove Session.conn a.sessions s.conn) a.subscrs (p := x.ptr) (q := a.nextSubscr)
    (by
      have hk : (refs a.sessions x.ptr : Int) + -1 ≠ 0 := by omega
      simp only [UseCount.change, ↓reduceIte, hk, List.cons.injEq, Prod.mk.injEq, true_and,
        and_true]
      omega)
    (fun y hy hyx => refs_remove_other h.toLinked hs (hne y hy hyx))
  simp only [Service.world, Service.drop, Service.gc, hgc]
  rw [← hchg]
  rfl

/-- The connection of an ended session returns its subscriber token. -/
theorem smlcSubscrPut_drop (h : a.WF) (hs : s ∈ a.sessions) (hp : s.subscr = some p) :
    smlcSubscrPut p .lbConn a.world.subscrs = .ok ((), (a.drop s n).world.subscrs) := by
  obtain ⟨x, hx, rfl⟩ := h.subscrListed s hs p hp
  have hlk := subscr?_world h.toLinked hx
  have hpos := h.subscrUsed x hx
  by_cases hone : refs a.sessions x.ptr = 1
  · rw [drop_subscrs_last h hs hp hone, smlcSubscrPut_free hlk]
    · rfl
    · simp [Subscr.smlcSubscr, hone, UseCount.change]
    · simp [Subscr.smlcSubscr, hone, UseCount.total]
  · rw [drop_subscrs_keep h hs hp (by omega), smlcSubscrPut_keep hlk]
    · have hk : (refs a.sessions x.ptr : Int) + -1 ≠ 0 := by omega
      simp only [Subscr.smlcSubscr, UseCount.change, ↓reduceIte, hk, UseCount.count]
      omega
    · simp only [Subscr.smlcSubscr, UseCount.total]
      omega

/-- What a request does with the tokens of its subscriber, once it has found it. -/
theorem smlcSubscr_hold {t : Subscribers Use} {x : SmlcSubscr Use}
    (hx : t.subscr? p = some x)
    (hu : x.useCount = [] ∨ ∃ k : Nat, x.useCount = [(.lbConn, (k : Int))]) :
    ∃ t', smlcSubscrGet p .lbConn (t.changed p .smlcLocReqStart 1) = .ok ((), t') ∧
      smlcSubscrPut p .smlcLocReqStart t' = .ok ((), t.upd p fun x => { x with
        useCount := ((x.useCount.change .smlcLocReqStart 1).change .lbConn 1).change
          .smlcLocReqStart (-1) }) := by
  have htot : 0 ≤ x.useCount.total := by
    rcases hu with hu | ⟨k, hu⟩ <;> simp [hu, UseCount.total]
  have hx1 : (t.changed p .smlcLocReqStart 1).subscr? p = some _ :=
    Subscribers.subscr?_changed hx
  have hx2 : ((t.changed p .smlcLocReqStart 1).changed p .lbConn 1).subscr? p = some _ :=
    Subscribers.subscr?_changed hx1
  refine ⟨_, smlcSubscrGet_keep hx1 ?_ ?_, ?_⟩
  · rcases hu with hu | ⟨k, hu⟩
    · simp [hu, UseCount.change, UseCount.count]
    · have hne : (k : Int) + 1 ≠ 0 := by omega
      simp [hu, UseCount.change, hne, UseCount.count]
      omega
  · rw [UseCount.total_change]
    omega
  · rw [smlcSubscrPut_keep hx2 ?_ ?_]
    · simp only [Subscribers.changed, Subscribers.upd]
      rw [KeyedList.update_update, KeyedList.update_update]
      · rfl
      · exact fun _ => rfl
      · exact fun _ => rfl
    · rcases hu with hu | ⟨k, hu⟩
      · simp [hu, UseCount.change, UseCount.count]
      · have hne : (k : Int) + 1 ≠ 0 := by omega
        simp [hu, UseCount.change, hne, UseCount.count]
    · simp only [UseCount.total_change]
      omega

/-- The subscribers between two events are well-formed. -/
theorem world_subscrsForm (h : a.WF) : a.world.subscrs.Form where
  ptrs := by
    have hmap : (a.subscrs.map (Subscr.smlcSubscr a.sessions)).map SmlcSubscr.ptr
        = a.subscrs.map Subscr.ptr := by
      rw [List.map_map]
      rfl
    exact hmap ▸ h.subscrPtrs
  bound := by
    intro x hx
    obtain ⟨y, hy, rfl⟩ := List.mem_map.mp hx
    exact h.subscrBound y hy
  used := by
    intro x hx
    obtain ⟨y, hy, rfl⟩ := List.mem_map.mp hx
    have hpos := h.subscrUsed y hy
    exact ⟨⟨by simp [Subscr.smlcSubscr], by simpa [Subscr.smlcSubscr] using hpos⟩,
      List.cons_ne_nil _ _⟩

theorem byImsi_world {imsi : MobileIdentity} : a.world.subscrs.byImsi L imsi
    = (a.subscrs.find? fun x => L.mobileIdentityCmp x.imsi imsi = 0).map
      (Subscr.smlcSubscr a.sessions) := by
  simp only [Subscribers.byImsi, Service.world, List.find?_map]
  rfl

/-- A request that names an IMSI finds or creates its subscriber and leaves the token
of its connection on it. -/
theorem smlcSubscrFindOrCreate_bind {imsi : MobileIdentity} (h : a.WF)
    (hs : s.subscr = some (a.bind L imsi).1) :
    ∃ t' t'', smlcSubscrFindOrCreate L imsi .smlcLocReqStart a.world.subscrs
        = .ok ((a.bind L imsi).1, t') ∧
      smlcSubscrGet (a.bind L imsi).1 .lbConn t' = .ok ((), t'') ∧
      smlcSubscrPut (a.bind L imsi).1 .smlcLocReqStart t''
        = .ok ((), ⟨(a.bind L imsi).2.subscrs.map (Subscr.smlcSubscr (s :: a.sessions)),
          (a.bind L imsi).2.nextSubscr⟩) := by
  have hother : ∀ {q : SubscrPtr}, q ≠ (a.bind L imsi).1 →
      refs a.sessions q = refs (s :: a.sessions) q := by
    intro q hq
    rw [refs_cons, hs]
    simp [Ne.symm hq]
  have hself : refs (s :: a.sessions) (a.bind L imsi).1
      = refs a.sessions (a.bind L imsi).1 + 1 := by
    rw [refs_cons, hs]
    simp
  cases hb : a.subscrs.find? fun x => L.mobileIdentityCmp x.imsi imsi = 0 with
  | some x =>
    have hbind : a.bind L imsi = (x.ptr, a) := by simp [bind, hb]
    rw [hbind] at hself hother ⊢
    have hx := subscr?_world h.toLinked (List.mem_of_find?_eq_some hb)
    have hbw : a.world.subscrs.byImsi L imsi = some (x.smlcSubscr a.sessions) := by
      rw [byImsi_world, hb]
      rfl
    obtain ⟨t', hget, hput⟩ := smlcSubscr_hold hx (.inr ⟨_, rfl⟩)
    refine ⟨_, t', smlcSubscrFindOrCreate_listed (world_subscrsForm h) hbw, hget, ?_⟩
    rw [hput]
    congr 2
    have hne : (refs a.sessions x.ptr : Int) + 1 ≠ 0 := by omega
    refine changed_world (fun u => ((u.change .smlcLocReqStart 1).change .lbConn 1).change
      .smlcLocReqStart (-1)) _ _ _ ?_ fun y _ hy => hother hy
    simp [UseCount.change, hne, hself]
  | none =>
    have hbind : a.bind L imsi = (a.nextSubscr, { a with
        subscrs := a.subscrs ++ [⟨a.nextSubscr, imsi⟩]
        nextSubscr := a.nextSubscr + 1 }) := by simp [bind, hb]
    rw [hbind] at hself hother ⊢
    have hfresh : ∀ y ∈ a.subscrs, y.ptr ≠ a.nextSubscr := fun y hy =>
      Nat.ne_of_lt (h.subscrBound y hy)
    have hzero : refs a.sessions a.nextSubscr = 0 := by
      by_contra hne
      obtain ⟨s', hs', hp⟩ := refs_pos_iff.mp (Nat.pos_of_ne_zero hne)
      obtain ⟨x, hx, hxp⟩ := h.subscrListed s' hs' _ hp
      exact hfresh x hx hxp
    have hform := world_subscrsForm h
    have hbw : a.world.subscrs.byImsi L imsi = none := by
      rw [byImsi_world, hb]
      rfl
    obtain ⟨t', hget, hput⟩ := smlcSubscr_hold (t := a.world.subscrs.alloc imsi)
      hform.subscr?_append (.inl rfl)
    refine ⟨_, t', smlcSubscrFindOrCreate_alloc hform hbw, hget, ?_⟩
    apply hput.trans
    congr 2
    have hnext : a.world.subscrs.next = a.nextSubscr := rfl
    simp only [hnext, Subscribers.alloc, Subscribers.upd, KeyedList.update, List.map_append,
      Subscribers.mk.injEq, List.map_cons, List.map_nil, and_true]
    congr 1
    · simp only [Service.world, List.map_map]
      apply List.map_congr_left
      intro y hy
      simp [Subscr.smlcSubscr, hfresh y hy, hother (hfresh y hy)]
    · simp [UseCount.change, Subscr.smlcSubscr, hself, hzero]

end Service
end OsmoSmlc
