import OsmoSmlc.Model.Sample
import OsmoSmlc.Service.Endings
import OsmoSmlc.Service.Objects

/-! How long a connection and its request last, over whole runs: exactly until one of the
events that end it. Without any message from a peer, the timeouts end them all. -/
namespace OsmoSmlc
open Osmo

/-- The events that end a connection with its request: a message on it that says so, T-12 of
the request, and a RESET from its peer. -/
def World.EndedBy (L : Libosmo) (w : World) (x : LbConn) (r : ReqPtr) (ev : Event) : Prop :=
  (ev.endingFor L x.sccpConnId r).isSome ∨ ∃ addr l2 p, ev = .scu (.nUnitdata addr l2) ∧
    L.bssmapLeMsgt l2 = .reset ∧ w.lbPeerFind L addr = some p ∧ x.lbPeer = some p.ptr

def Event.isTimeout : Event → Bool
  | .locReqTimer _ | .lbPeerTimer _ => true
  | _ => false

namespace Service

variable {L : Libosmo} {a a' : Service} {s t : Session} {is : List Input} {i : Input}

theorem endedBy_world {ev : Event} :
    a.world.EndedBy L s.lbConn s.req ev ↔ a.EndedBy L s ev := by
  refine or_congr_right ?_
  constructor
  · rintro ⟨addr, l2, p, hev, hm, hp, hpeer⟩
    refine ⟨addr, l2, hev, hm, ?_⟩
    rw [← peerTable_find]
    have hfind : a.lbPeers.find? (fun x => L.sccpAddrRiCmp addr x.peerAddr = 0) = some p := hp
    rw [hfind]
    exact hpeer.symm
  · rintro ⟨addr, l2, hev, hm, hp⟩
    rw [← peerTable_find] at hp
    obtain ⟨p, hfind, hpeer⟩ := Option.map_eq_some_iff.mp hp
    exact ⟨addr, l2, p, hev, hm, hfind, congrArg some hpeer.symm⟩

/-- A session lasts exactly until an event that ends it, and its request is not used again. -/
theorem run_mem_iff (hri : L.RiCmpEquivalence) (h : a.WF) (hs : s ∈ a.sessions)
    (hr : run (step L) a is = .ok a') :
    (s ∈ a'.sessions ↔ ∀ i ∈ is, ¬a.EndedBy L s i.ev) ∧ (s ∈ a'.sessions ∨ a'.Over s.req) := by
  refine run_lasts_iff (I := Anchored L a s) (P := fun b => s ∈ b.sessions)
    (Q := fun b => b.Over s.req) ?_ ?_ ?_ ?_ ?_ (.refl h hs) hs hr
  · intro b i b' hb ho
    exact hb.step hri ho
  · intro b i b' hb hmem ho hi
    exact (step_mem_iff hb.wf hmem ho).mpr fun he => hi (hb.endedBy.mp he)
  · intro b i b' hb hmem ho hi
    exact step_over hb.wf hmem ho (hb.endedBy.mpr hi)
  · intro b i b' hb hover ho
    exact hover.step hb.wf ho
  · intro b hover hmem
    exact hover.2 s hmem rfl

theorem step_timeout (h : a.WF) (hi : i.ev.isTimeout = true) : ∃ a', a.step L i = .ok a' ∧ a'.WF := by
  obtain ⟨ev, io⟩ := i
  cases ev with
  | locReqTimer r => exact ⟨_, rfl, h.locReqTimeout r⟩
  | lbPeerTimer p =>
    have ho : a.step L ⟨.lbPeerTimer p, io⟩ = .ok (a.lbPeerTimeout p) := rfl
    exact ⟨_, ho, step_wf h ho⟩
  | scu prim => cases hi
  | vty cmd => cases hi

/-- A timeout opens no session. -/
theorem step_timeout_mem (h : a.WF) (hi : i.ev.isTimeout = true) (ho : a.step L i = .ok a')
    (ht : t ∈ a'.sessions) : t ∈ a.sessions ∧ i.ev ≠ .locReqTimer t.req := by
  obtain ⟨ev, io⟩ := i
  cases ev with
  | locReqTimer r =>
    cases ho
    obtain ⟨hmem, hne⟩ := (locReqTimeout_mem h).mp ht
    refine ⟨hmem, ?_⟩
    rintro ⟨⟩
    exact hne rfl
  | lbPeerTimer p =>
    cases ho
    have hs : (a.lbPeerTimeout p).sessions = a.sessions := by
      unfold lbPeerTimeout
      split
      · split
        · rfl
        · rfl
      · rfl
    exact ⟨hs ▸ ht, by simp⟩
  | scu prim => cases hi
  | vty cmd => cases hi

end Service

/-- A connection stays listed, with the same request pending, exactly as long as none of the
events occurs that end it; then its request is gone for good. -/
theorem conn_lasts_iff (L : Libosmo) (hri : L.RiCmpEquivalence) {w u : World}
    (hw : ReachableWorld L w) {is : List Input} (hr : run (step L) w is = .ok u) {x : LbConn}
    (hx : x ∈ w.lbConns) : ∃ r q, x.smlcLocReq = some r ∧ w.locReq? r = some q ∧
      (x ∈ u.lbConns ↔ ∀ i ∈ is, ¬w.EndedBy L x r i.ev) ∧
      (x ∈ u.lbConns → u.locReq? r = some q) ∧ (x ∉ u.lbConns → u.locReq? r = none) := by
  obtain ⟨scu, a, -, hwf, rfl⟩ := hw.service
  obtain ⟨s, hs, rfl⟩ := List.mem_map.mp hx
  obtain ⟨a', ha, hwf', rfl⟩ := run_world_ok L hwf hr
  obtain ⟨hiff, hor⟩ := Service.run_mem_iff hri hwf hs ha
  have hmem : s.lbConn ∈ a'.world.lbConns ↔ s ∈ a'.sessions := by
    refine ⟨fun h => ?_, List.mem_map_of_mem⟩
    obtain ⟨t, ht, hts⟩ := List.mem_map.mp h
    have hreq : t.req = s.req := Option.some.inj (congrArg LbConn.smlcLocReq hts)
    exact hor.resolve_right fun hover => hover.2 t ht hreq
  refine ⟨s.req, s.locReq, rfl, Service.world_locReq? hwf hs, ?_, ?_, ?_⟩
  · rw [hmem, hiff]
    exact forall₂_congr fun i _ => not_congr Service.endedBy_world.symm
  · intro h
    exact Service.world_locReq? hwf' (hmem.mp h)
  · intro h
    exact Service.world_locReq?_none.mpr (hor.resolve_left fun hs => h (hmem.mpr hs)).2

/-- Other connections end, and a message on this one says nothing. -/
theorem conn_lasts_iff_two :
    let w := Sample.after Sample.twoConns
    ∃ u, run (step Sample.libosmo) w [Sample.data 2 Sample.msgAbort, Sample.data 1 [],
        Sample.resetFrom Sample.addrB] = .ok u ∧
      ∀ x ∈ w.lbConns, x.sccpConnId = 1 → x ∈ u.lbConns := by
  intro w
  have hw : ReachableWorld Sample.libosmo w := Sample.reachable (by decide +kernel)
  let is := [Sample.data 2 Sample.msgAbort, Sample.data 1 [], Sample.resetFrom Sample.addrB]
  have hr : run (step Sample.libosmo) w is = .ok (Sample.after (Sample.twoConns ++ is)) := by
    have hall : run (step Sample.libosmo) (World.init true) (Sample.twoConns ++ is) = _ :=
      Sample.run_after (by decide +kernel)
    have htwo : run (step Sample.libosmo) (World.init true) Sample.twoConns = _ :=
      Sample.run_after (by decide +kernel)
    obtain ⟨v, hv, hu⟩ := run_append.mp hall
    cases htwo.symm.trans hv
    exact hu
  refine ⟨_, hr, fun x hx hid => ?_⟩
  obtain ⟨r, q, -, -, hiff, -⟩ := conn_lasts_iff Sample.libosmo Sample.libosmo_riCmp hw hr hx
  refine hiff.mpr fun i hi => ?_
  have hfind : w.lbPeerFind Sample.libosmo Sample.addrB = none := by decide +kernel
  simp only [is, List.mem_cons, List.not_mem_nil, or_false] at hi
  rintro (he | ⟨addr, l2, p, hev, -, hp, -⟩)
  · rcases hi with rfl | rfl | rfl
    · simp [Event.endingFor, Sample.data, hid] at he
    · simp only [Event.endingFor, Sample.data, hid, if_true] at he
      exact absurd he (by decide)
    · simp [Event.endingFor, Sample.resetFrom] at he
  · rcases hi with rfl | rfl | rfl
    · cases hev
    · cases hev
    · cases hev
      cases hfind.symm.trans hp

/-- Every pending request is in the state that T-12 is for, and once T-12 has expired for all of
them, no connection, request or subscriber is left, whatever other timeouts there are. -/
theorem timers_drain (L : Libosmo) {w : World} (hw : ReachableWorld L w) {is : List Input}
    (htimers : ∀ i ∈ is, i.ev.isTimeout = true)
    (hall : ∀ q ∈ w.locReqs, ∃ i ∈ is, i.ev = .locReqTimer q.ptr) :
    (∀ q ∈ w.locReqs, q.fi.state = .waitTa) ∧
    ∃ u, run (step L) w is = .ok u ∧ u.lbConns = [] ∧ u.locReqs = [] ∧ u.subscrs.list = [] := by
  obtain ⟨scu, a, -, hwf, rfl⟩ := hw.service
  have hmeets : Meets (Service.step L) (fun _ i => i.ev.isTimeout = true) a is :=
    meets_of_forall fun i hi _ => htimers i hi
  obtain ⟨a', ha⟩ := run_total_of_meets (I := Service.WF)
    (fun _ _ hb hi => Service.step_timeout hb hi) hwf hmeets
  have hwf' : a'.WF := Service.run_wf L hwf ha
  -- what is left was there before, and its T-12 has not expired
  have hleft : ∀ t ∈ a'.sessions, t ∈ a.sessions ∧ ∀ i ∈ is, i.ev ≠ .locReqTimer t.req := by
    refine run_history (H := fun js b => ∀ t ∈ b.sessions, t ∈ a.sessions ∧
      ∀ i ∈ js, i.ev ≠ .locReqTimer t.req) ?_ ?_ hmeets ha
    · exact fun t ht => ⟨ht, fun i hi => absurd hi List.not_mem_nil⟩
    · intro js b i b' hb hjs hi ho t ht
      obtain ⟨hmem, hne⟩ := Service.step_timeout_mem (Service.run_wf L hwf hb) hi ho ht
      obtain ⟨hold, hbefore⟩ := hjs t hmem
      refine ⟨hold, fun j hj => ?_⟩
      rcases List.mem_append.mp hj with hj | hj
      · exact hbefore j hj
      · rw [List.mem_singleton.mp hj]
        exact hne
  have hsessions : a'.sessions = [] := by
    refine List.eq_nil_iff_forall_not_mem.mpr fun t ht => ?_
    obtain ⟨hold, hnone⟩ := hleft t ht
    obtain ⟨i, hi, hev⟩ := hall t.locReq (List.mem_map_of_mem hold)
    exact hnone i hi hev
  have hsubscrs : a'.subscrs = [] := by
    refine List.eq_nil_iff_forall_not_mem.mpr fun y hy => ?_
    have hused : 0 < refs a'.sessions y.ptr := hwf'.subscrUsed y hy
    rw [hsessions] at hused
    exact absurd hused (Nat.lt_irrefl 0)
  constructor
  · intro q hq
    obtain ⟨s, -, rfl⟩ := List.mem_map.mp hq
    rfl
  · refine ⟨a'.world, ?_, ?_, ?_, ?_⟩
    · rw [run_world L hwf, ha]
      rfl
    · exact congrArg (List.map Session.lbConn) hsessions
    · exact congrArg (List.map Session.locReq) hsessions
    · exact congrArg (List.map (Subscr.smlcSubscr a'.sessions)) hsubscrs

/-- Two pending requests, and the timer of their peer in between. -/
theorem timers_drain_two :
    let w := Sample.after Sample.twoConns
    (∀ q ∈ w.locReqs, q.fi.state = .waitTa) ∧
    ∃ u, run (step Sample.libosmo) w [Sample.locReqTimer 1, ⟨.lbPeerTimer 0, Sample.io⟩,
        Sample.locReqTimer 0] = .ok u ∧
      u.lbConns = [] ∧ u.locReqs = [] ∧ u.subscrs.list = [] := by
  intro w
  have hw : ReachableWorld Sample.libosmo w := Sample.reachable (by decide +kernel)
  have hptrs : w.locReqs.map SmlcLocReq.ptr = [1, 0] := by decide +kernel
  refine timers_drain Sample.libosmo hw ?_ ?_
  · simp [Sample.locReqTimer, Event.isTimeout]
  · intro q hq
    have hptr : q.ptr ∈ [1, 0] := hptrs ▸ List.mem_map_of_mem hq
    simp only [List.mem_cons, List.not_mem_nil, or_false] at hptr
    rcases hptr with h | h
    · exact ⟨_, List.mem_cons_self, by rw [h]; rfl⟩
    · exact ⟨_, List.mem_of_getLast? rfl, by rw [h]; rfl⟩

end OsmoSmlc
