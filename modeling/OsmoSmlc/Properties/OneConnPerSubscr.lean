import OsmoSmlc.Properties.Disconnect
import OsmoSmlc.Service.Connect

/-! Connections of one subscriber. A request that names an IMSI is meant to close the older
connections of its subscriber, but the walk over the list starts before the new connection
is bound and finds the new connection itself. -/
namespace OsmoSmlc
open Osmo

/-- The connection is bound to the subscriber with the IMSI. -/
def World.BoundTo (L : Libosmo) (w : World) (imsi : MobileIdentity) (x : LbConn) : Prop :=
  ∃ s, w.subscrs.byImsi L imsi = some s ∧ x.smlcSubscr = some s.ptr

/-- A request on `c` has closed the other connections of its subscriber, and no others. -/
structure World.OthersClosed (L : Libosmo) (imsi : MobileIdentity) (c : ConnPtr) (w w' : World) :
    Prop where
  closed : ∀ x ∈ w.lbConns, x.ptr ≠ c → w.BoundTo L imsi x →
    w'.lbConn? x.ptr = none ∧ (newActs w w').count (.connFree x.ptr) = 1 ∧
    ∀ r, x.smlcLocReq = some r →
      w'.locReq? r = none ∧ (newActs w w').count (.locReqCleanup r) = 1
  tokens : ∀ s, w.subscrs.byImsi L imsi = some s →
    w'.tokens s.ptr = if (w'.lbConn? c).isSome then 1 else 0
  kept : ∀ x ∈ w.lbConns, x.ptr ≠ c → ¬w.BoundTo L imsi x →
    w'.lbConn? x.ptr = some x ∧ (newActs w w').count (.connFree x.ptr) = 0

/-- The event is a request on a new connection, for the subscriber of a listed one. -/
def OpensBound (L : Libosmo) (w : World) (i : Input) : Prop :=
  ∃ connId addr l2 x pdu, ∃ y ∈ w.lbConns, i.ev = .scu (.nConnect connId addr l2) ∧ l2 ≠ [] ∧
    w.connById connId = none ∧ w.lbPeerFind L addr = some x ∧ x.fi.state = .ready ∧
    L.bssapLeDec l2 = some (.bssmapLe (.performLocReq pdu)) ∧ pdu.imsi.type = .imsi ∧
    w.BoundTo L pdu.imsi y

theorem Libosmo.msg_request_iff {L : Libosmo} {l2 : List UInt8} {pdu : PerformLocReq} :
    L.msg l2 = .request pdu ↔ L.bssapLeDec l2 = some (.bssmapLe (.performLocReq pdu)) := by
  unfold Libosmo.msg
  cases L.bssapLeDec l2 with
  | none => simp
  | some p =>
    cases p with
    | other discr => exact ⟨nofun, nofun⟩
    | bssmapLe p =>
      cases p with
      | performLocReq p =>
        constructor
        · intro h
          cases h
          rfl
        · intro h
          cases h
          rfl
      | connOrientedInfo apdu => cases apdu <;> exact ⟨nofun, nofun⟩
      | _ => exact ⟨nofun, nofun⟩

namespace Service

variable {L : Libosmo} {io : Io} {a a' : Service} {i : Input} {w' : World}

/-- A subscriber that is listed has a connection. -/
theorem byImsi_bound (h : a.WF) {imsi : MobileIdentity} {s : SmlcSubscr Use}
    (hs : a.world.subscrs.byImsi L imsi = some s) :
    ∃ t ∈ a.sessions, t.subscr = some s.ptr := by
  rw [byImsi_world] at hs
  obtain ⟨x, hx, rfl⟩ := Option.map_eq_some_iff.mp hs
  exact refs_pos_iff.mp (h.subscrUsed x (List.mem_of_find?_eq_some hx))

/-- Where no listed connection has the subscriber, nothing needs to be closed; where one
has it, it is not closed. -/
theorem step_othersClosed_iff (h : a.WF) (hr : StepRecord L a i w' a') :
    (∀ r c pdu, .locReqAccepted r c pdu ∈ newActs a.world w' → pdu.imsi.type = .imsi →
      a.world.OthersClosed L pdu.imsi c w') ↔ ¬OpensBound L a.world i := by
  obtain rfl := hr.world
  constructor
  · rintro hp ⟨connId, addr, l2, x, pdu, y, hy, hev, hl2, hc, hx, hst, hdec, htype, hbound⟩
    obtain ⟨ev, io⟩ := i
    obtain rfl : ev = _ := hev
    obtain ⟨acts, hacts, hout⟩ := step_connect h hl2 hc hr.step
    rw [Libosmo.msg_request_iff.mpr hdec] at hout
    obtain ⟨r, hacc⟩ := hout.request (peer_ready.mpr ⟨x, hx, hst⟩)
    have hnew : .locReqAccepted r a.next.conn pdu ∈ newActs a.world a'.world := by
      rw [hr.mem_iff rfl, hacts]
      simp [hacc]
    obtain ⟨s, hs, rfl⟩ := List.mem_map.mp hy
    have hne : s.conn ≠ a.next.conn := Nat.ne_of_lt (h.connBound s hs)
    have hclosed := ((hp r _ pdu hnew htype).closed _ hy hne hbound).1
    have hlisted := world_lbConn? hr.wf (hout.keeps.1 s hs)
    cases hclosed.symm.trans hlisted
  · intro hno r c pdu hacc htype
    rw [hr.mem_iff rfl] at hacc
    obtain ⟨connId, addr, l2, acts, hev, hl2, hc, hacts, hout, hacc⟩ :=
      step_accepted h hr.step hacc
    obtain ⟨hready, hm, rfl⟩ := hout.accepted hacc
    obtain ⟨x, hx, hst⟩ := peer_ready.mp hready
    have hunbound : ∀ y ∈ a.world.lbConns, ¬a.world.BoundTo L pdu.imsi y :=
      fun y hy hb => hno ⟨connId, addr, l2, x, pdu, y, hy, hev, hl2, hc, hx, hst,
        Libosmo.msg_request_iff.mp hm, htype, hb⟩
    refine ⟨fun y hy _ hb => absurd hb (hunbound y hy), ?_, ?_⟩
    · intro s hs
      obtain ⟨t, ht, hts⟩ := byImsi_bound h hs
      exact absurd ⟨s, hs, hts⟩ (hunbound _ (List.mem_map_of_mem ht))
    · intro y hy hne _
      obtain ⟨s, hs, rfl⟩ := List.mem_map.mp hy
      refine ⟨world_lbConn? hr.wf (hout.keeps.1 s hs), ?_⟩
      have hzero : acts.count (.connFree s.lbConn.ptr) = 0 := hout.keeps.2 _ hne
      rw [hr.count_eq rfl, hacts, List.count_cons, List.count_cons, hzero]
      rfl

/-- No two sessions have the same subscriber. -/
def OnePerSubscr (a : Service) : Prop :=
  ∀ s ∈ a.sessions, ∀ t ∈ a.sessions, ∀ p, s.subscr = some p → t.subscr = some p → s = t

theorem OnePerSubscr.mono (h : a.OnePerSubscr) (hs : ∀ s ∈ a'.sessions, s ∈ a.sessions) :
    a'.OnePerSubscr := fun s hs' t ht' => h s (hs s hs') t (hs t ht')

/-- The subscriber of a new session is known and has no session, or is new. -/
theorem bindRequest_unbound {pdu : PerformLocReq} {p : SubscrPtr} (h : a.WF)
    (hno : ∀ y ∈ a.world.lbConns, pdu.imsi.type = .imsi → ¬a.world.BoundTo L pdu.imsi y)
    (hp : (a.bindRequest L pdu).1 = some p) : ∀ t ∈ a.sessions, t.subscr ≠ some p := by
  intro t ht htp
  by_cases htype : pdu.imsi.type = .imsi
  · rw [bindRequest_imsi htype] at hp
    cases hfind : a.subscrs.find? fun x => L.mobileIdentityCmp x.imsi pdu.imsi = 0 with
    | some x =>
      have hx : (a.bind L pdu.imsi).1 = x.ptr := by simp only [bind, hfind]
      have hb : a.world.BoundTo L pdu.imsi t.lbConn := by
        refine ⟨x.smlcSubscr a.sessions, ?_, ?_⟩
        · rw [byImsi_world, hfind]
          rfl
        · show t.subscr = some x.ptr
          rw [htp, ← hp, hx]
      exact hno _ (List.mem_map_of_mem ht) htype hb
    | none =>
      have hx : (a.bind L pdu.imsi).1 = a.nextSubscr := by simp only [bind, hfind]
      obtain ⟨x, hmem, hxp⟩ := h.subscrListed t ht p htp
      have hlt := h.subscrBound x hmem
      rw [hx] at hp
      cases hp
      exact absurd hxp (Nat.ne_of_lt hlt)
  · rw [bindRequest_other htype] at hp
    cases hp

theorem step_onePerSubscr (h : a.WF) (h1 : a.OnePerSubscr) (hno : ¬OpensBound L a.world i)
    (ho : a.step L i = .ok a') : a'.OnePerSubscr := by
  have hturn := step_turn h ho
  generalize (a.effect L i).told = told at hturn
  cases hturn with
  | quiet hs hr => exact h1.mono fun s hmem => hs ▸ hmem
  | ended s k hmem hs hr =>
    exact h1.mono fun t ht => (KeyedList.mem_remove.mp (hs ▸ ht)).1
  | discarded p hs hr => exact h1.mono fun t ht => (List.mem_filter.mp (hs ▸ ht)).1
  | answered s ta addr l2 hev hreq hs hr => exact h1.mono fun s hmem => hs ▸ hmem
  | opened s addr l2 hev hreq hs hr =>
    obtain ⟨ev, io⟩ := i
    obtain rfl : ev = _ := hev
    have hne : a'.sessions ≠ a.sessions := by
      intro heq
      have hlen := congrArg List.length (hs.symm.trans heq)
      simp at hlen
    have hgo : ¬(l2 = [] ∨ a.world.connById s.connId ≠ none) :=
      fun hr => hne (step_connect_refused hr ho).1
    rw [not_or, not_not] at hgo
    obtain ⟨acts, -, hout⟩ := step_connect h hgo.1 hgo.2 ho
    generalize hmsg : L.msg l2 = m at hout
    cases hout with
    | refused hx hs' => exact absurd hs' hne
    | disconnected hx hs' => exact absurd hs' hne
    | ignored hx hm hs' => exact absurd hs' hne
    | answered s' ta hx hm hcc hid hs' => exact absurd hs' hne
    | opened s' hx hm hcc hid hp hsub hs' hbind =>
      obtain rfl : s = s' := (List.cons.inj (hs.symm.trans hs')).1
      obtain ⟨x, hfind, hst⟩ := peer_ready.mp hx
      have hunbound : ∀ y ∈ a.world.lbConns, s.pdu.imsi.type = .imsi →
          ¬a.world.BoundTo L s.pdu.imsi y :=
        fun y hy htype hb => hno ⟨s.connId, addr, l2, x, s.pdu, y, hy, rfl, hgo.1, hgo.2, hfind,
          hst, Libosmo.msg_request_iff.mp (hmsg.trans hm), htype, hb⟩
      have hnew : ∀ p, s.subscr = some p → ∀ t ∈ a.sessions, t.subscr ≠ some p :=
        fun p hsp => bindRequest_unbound h hunbound (hsub ▸ hsp)
      intro t ht u hu p htp hup
      rw [hs] at ht hu
      rcases List.mem_cons.mp ht with hts | ht'
      · rcases List.mem_cons.mp hu with hus | hu'
        · exact hts.trans hus.symm
        · exact absurd hup (hnew p (hts ▸ htp) u hu')
      · rcases List.mem_cons.mp hu with hus | hu'
        · exact absurd htp (hnew p (hus ▸ hup) t ht')
        · exact h1 t ht' u hu' p htp hup

end Service

/-- A request closes the other connections of its subscriber exactly where there are none.
In runs without a request for the subscriber of a listed connection no two connections are
bound to the same subscriber. -/
theorem othersClosed_iff (L : Libosmo) :
    (∀ w, ReachableWorld L w → ∀ i w', step L w i = .ok w' →
      ((∀ r c pdu, .locReqAccepted r c pdu ∈ newActs w w' → pdu.imsi.type = .imsi →
        w.OthersClosed L pdu.imsi c w') ↔ ¬OpensBound L w i)) ∧
    (∀ scu is w, Meets (step L) (fun w i => ¬OpensBound L w i) (World.init scu) is →
      run (step L) (World.init scu) is = .ok w →
      ∀ x ∈ w.lbConns, ∀ y ∈ w.lbConns, ∀ p, x.smlcSubscr = some p → y.smlcSubscr = some p →
      x = y) := by
  constructor
  · intro w hw i w' hs
    obtain ⟨scu, a, -, hwf, rfl⟩ := hw.service
    obtain ⟨a', hr⟩ := step_record L hwf hs
    exact Service.step_othersClosed_iff hwf hr
  · intro scu is w hm hrun
    have hinv : ∃ a : Service, a.WF ∧ w = a.world ∧ a.OnePerSubscr := by
      refine run_invariant_of_meets (I := fun w => ∃ a : Service, a.WF ∧ w = a.world ∧
        a.OnePerSubscr) ?_ ⟨Service.init scu, Service.init_wf scu, rfl, ?_⟩ hm hrun
      · rintro u i v ⟨a, hwf, rfl, h1⟩ hno hs
        obtain ⟨a', hr⟩ := step_record L hwf hs
        exact ⟨a', hr.wf, hr.world, Service.step_onePerSubscr hwf h1 hno hr.step⟩
      · simp [Service.OnePerSubscr, Service.init]
    obtain ⟨a, hwf, rfl, h1⟩ := hinv
    intro x hx y hy p hxp hyp
    obtain ⟨s, hs, rfl⟩ := List.mem_map.mp hx
    obtain ⟨t, ht, rfl⟩ := List.mem_map.mp hy
    rw [h1 s hs t ht p hxp hyp]

/-- A request for a second subscriber leaves the connection of the first one as it is. -/
theorem othersClosed_iff_two :
    let is : List Input := [Sample.resetFrom Sample.addrA,
      Sample.connect 1 Sample.addrA Sample.msgRequestA]
    let w := Sample.after is
    let w' := Sample.after (is ++ [Sample.connect 2 Sample.addrA Sample.msgRequestB])
    w.OthersClosed Sample.libosmo Sample.imsiB 1 w' ∧
    w'.lbConns.map (fun x => (x.sccpConnId, x.smlcSubscr)) = [(2, some 1), (1, some 0)] ∧
    ∀ x ∈ w'.lbConns, ∀ y ∈ w'.lbConns, ∀ p,
      x.smlcSubscr = some p → y.smlcSubscr = some p → x = y := by
  intro is w w'
  let i : Input := Sample.connect 2 Sample.addrA Sample.msgRequestB
  let reset : List Input := [Sample.resetFrom Sample.addrA]
  have hs₀ : Sample.survives reset = true := by decide +kernel
  have hs : Sample.survives is = true := by decide +kernel
  have hs' : Sample.survives (is ++ [i]) = true := by decide +kernel
  have hno : ¬OpensBound Sample.libosmo w i := by
    rintro ⟨connId, addr, l2, x, pdu, y, -, hev, -, -, -, -, hdec, -, s, hsub, -⟩
    cases hev
    have hpdu : Sample.libosmo.bssapLeDec Sample.msgRequestB
        = some (.bssmapLe (.performLocReq (Sample.request Sample.imsiB))) := by decide +kernel
    cases hpdu.symm.trans hdec
    have hnone : w.subscrs.byImsi Sample.libosmo Sample.imsiB = none := by decide +kernel
    cases hnone.symm.trans hsub
  have hno₁ : ¬OpensBound Sample.libosmo (Sample.after reset)
      (Sample.connect 1 Sample.addrA Sample.msgRequestA) := by
    rintro ⟨connId, addr, l2, x, pdu, y, hy, -⟩
    have hnone : (Sample.after reset).lbConns = [] := by decide +kernel
    rw [hnone] at hy
    cases hy
  have hreset : Meets (step Sample.libosmo) (fun w i => ¬OpensBound Sample.libosmo w i)
      (World.init true) reset := by
    apply meets_of_forall
    intro j hj t
    rw [List.mem_singleton.mp hj]
    rintro ⟨connId, addr, l2, x, pdu, y, -, hev, -⟩
    cases hev
  have hm : Meets (step Sample.libosmo) (fun w i => ¬OpensBound Sample.libosmo w i)
      (World.init true) (is ++ [i]) := by
    refine meets_concat.mpr ⟨meets_concat.mpr ⟨hreset, fun t ht => ?_⟩, fun t ht => ?_⟩
    · rw [Sample.run_after hs₀] at ht
      cases ht
      exact hno₁
    · rw [Sample.run_after hs] at ht
      cases ht
      exact hno
  have h := othersClosed_iff Sample.libosmo
  have hclosed := (h.1 w (Sample.reachable hs) i w' (Sample.step_after hs')).mpr hno
  exact ⟨hclosed 1 1 (Sample.request Sample.imsiB) (by decide +kernel) rfl, by decide +kernel,
    h.2 true _ _ hm (Sample.run_after hs')⟩

/-- A second request for a subscriber leaves two connections bound to it. -/
theorem othersClosed_second :
    ¬ ∀ w, ReachableWorld Sample.libosmo w → ∀ x ∈ w.lbConns, ∀ y ∈ w.lbConns, ∀ p,
      x.smlcSubscr = some p → y.smlcSubscr = some p → x = y := by
  intro h
  have hs : Sample.survives Sample.twoConns = true := by decide +kernel
  let conns := (Sample.after Sample.twoConns).lbConns
  have hall : ∀ x ∈ conns, ∀ y ∈ conns, x.smlcSubscr = some 0 → y.smlcSubscr = some 0 → x = y :=
    fun x hx y hy => h _ (Sample.reachable hs) x hx y hy 0
  revert hall
  decide +kernel

end OsmoSmlc
