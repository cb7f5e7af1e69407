import Mathlib.Data.List.Pairwise
import OsmoSmlc.Model.Sample
import OsmoSmlc.Service.Simulation

/-! The object graph between two events: every connection has its pending request and no
other use, every subscriber has its connections and no other use, and the keys by which
objects are looked up are distinct. -/
namespace OsmoSmlc
open Osmo

/-- No two peers have matching addresses, no two subscribers matching identities. -/
structure Service.Distinct (L : Libosmo) (a : Service) : Prop where
  addrs : a.lbPeers.Pairwise fun x y => L.sccpAddrRiCmp x.peerAddr y.peerAddr ≠ 0
  imsis : a.subscrs.Pairwise fun x y => L.mobileIdentityCmp x.imsi y.imsi ≠ 0
  types : ∀ x ∈ a.subscrs, x.imsi.type = .imsi

namespace Service

variable {L : Libosmo} {io : Io} {a a' : Service}

theorem init_distinct (scu : Bool) : (init scu).Distinct L :=
  ⟨.nil, .nil, by simp [init]⟩

/-- Listed peers with matching addresses are the same. -/
theorem Distinct.eq_of_cmp {x y : LbPeer} (h : a.Distinct L) (hri : L.RiCmpEquivalence)
    (hx : x ∈ a.lbPeers) (hy : y ∈ a.lbPeers) (hc : L.sccpAddrRiCmp x.peerAddr y.peerAddr = 0) :
    x = y := by
  have hsym : Std.Symm fun y z : LbPeer => L.sccpAddrRiCmp y.peerAddr z.peerAddr ≠ 0 :=
    ⟨fun y z hyz hzy => hyz (hri.symm _ _ hzy)⟩
  by_contra hne
  exact h.addrs.forall hx hy hne hc

theorem Distinct.setNet (h : a.Distinct L) (n : Net) : (a.setNet n).Distinct L :=
  ⟨h.addrs, h.imsis, h.types⟩

theorem Distinct.emit (h : a.Distinct L) (act : Act) : (a.emit act).Distinct L := h.setNet _

theorem Distinct.drop (h : a.Distinct L) (s : Session) (n : Net) : (a.drop s n).Distinct L :=
  ⟨h.addrs, h.imsis.sublist List.filter_sublist, fun x hx => h.types x (List.mem_filter.mp hx).1⟩

theorem Distinct.discardAll (h : a.Distinct L) (p : PeerPtr) : (a.discardAll p).Distinct L :=
  ⟨h.addrs, h.imsis.sublist List.filter_sublist, fun x hx => h.types x (List.mem_filter.mp hx).1⟩

theorem Distinct.rx (h : a.Distinct L) (s : Session) (m : Msg) : (a.rx L io s m).Distinct L := by
  cases m with
  | ignored => exact h
  | request pdu => exact h.setNet _
  | ending e => exact h.drop s _

theorem Distinct.data (h : a.Distinct L) (connId : ConnId) (m : Msg) :
    (a.data L io connId m).Distinct L := by
  unfold Service.data
  split
  · exact (h.emit _).rx _ m
  · exact h

theorem Distinct.bind (h : a.Distinct L) {imsi : MobileIdentity} (ht : imsi.type = .imsi) :
    (a.bind L imsi).2.Distinct L := by
  unfold Service.bind
  split
  · exact h
  · rename_i hnone
    refine ⟨h.addrs, List.pairwise_append.mpr ⟨h.imsis, List.pairwise_singleton _ _, ?_⟩, ?_⟩
    · intro x hx y hy
      rw [List.mem_singleton.mp hy]
      simpa using List.find?_eq_none.mp hnone x hx
    · intro x hx
      rcases List.mem_append.mp hx with hx | hx
      · exact h.types x hx
      · rw [List.mem_singleton.mp hx]
        exact ht

theorem Distinct.bindRequest (h : a.Distinct L) (pdu : PerformLocReq) :
    (a.bindRequest L pdu).2.Distinct L := by
  by_cases ht : pdu.imsi.type = .imsi
  · rw [bindRequest_imsi ht]
    exact h.bind ht
  · rw [bindRequest_other ht]
    exact h

theorem Distinct.openConn {p : PeerPtr} {connId : ConnId} {m : Msg} (h : a.Distinct L)
    (ho : a.openConn L io p connId m = .ok a') : a'.Distinct L := by
  cases m with
  | ignored =>
    cases ho
    exact ⟨h.addrs, h.imsis, h.types⟩
  | request pdu =>
    cases ho
    have hb := h.bindRequest pdu
    have hn : ∀ n, (a.withSession L p connId pdu n).Distinct L := fun _ =>
      ⟨hb.addrs, hb.imsis, hb.types⟩
    unfold Service.openSession
    split
    · exact (hn _).drop _ _
    · exact hn _
  | ending e => cases ho

theorem Distinct.peer (h : a.Distinct L) (addr : SccpAddr) : (a.peer L addr).2.Distinct L := by
  unfold Service.peer
  split
  · exact h
  · rename_i hnone
    refine ⟨List.pairwise_cons.mpr ⟨?_, h.addrs⟩, h.imsis, h.types⟩
    intro x hx
    simpa using List.find?_eq_none.mp hnone x hx

theorem Distinct.setPeer (h : a.Distinct L) (p : PeerPtr) (st : LbPeerState) :
    (a.setPeer p st).Distinct L := by
  refine ⟨List.pairwise_map.mpr (h.addrs.imp ?_), h.imsis, h.types⟩
  intro x y hxy
  split <;> split <;> exact hxy

theorem Distinct.unitdata {addr : SccpAddr} {l2 : List UInt8} {msg : MsgbPtr}
    (h : a.Distinct L) : (a.unitdata L io addr l2 msg).Distinct L := by
  have hp := (h.peer addr).emit
    (.peerDispatch (a.peer L addr).1.ptr (a.peer L addr).1.fi.state .msgUpCl)
  unfold Service.unitdata
  dsimp only
  split
  · exact (((hp.emit _).discardAll _).setPeer _ _).setNet _
  · split
    · exact (hp.emit _).setPeer _ _
    · exact hp.emit _
  · exact hp

theorem Distinct.connect {connId : ConnId} {addr : SccpAddr} {m : Msg} (h : a.Distinct L)
    (ho : a.connect L io connId addr m = .ok a') : a'.Distinct L := by
  unfold Service.connect at ho
  split at ho
  · cases ho
    exact h.emit _
  · have hp := (h.peer addr).emit
      (.peerDispatch (a.peer L addr).1.ptr (a.peer L addr).1.fi.state .msgUpCoInitial)
    unfold Service.connectTo at ho
    dsimp only at ho
    split at ho
    · cases ho
      exact (hp.setPeer _ _).setNet _
    · cases ho
      exact ((hp.emit _).setPeer _ _).setNet _
    · exact hp.openConn ho
    · cases ho
      exact hp

theorem Distinct.rxPrim {msg : MsgbPtr} {prim : ScuInd} (h : a.Distinct L)
    (ho : a.rxPrim L io msg prim = .ok a') : a'.Distinct L := by
  cases prim with
  | nConnect connId addr l2 =>
    simp only [Service.rxPrim] at ho
    split at ho
    · cases ho
      exact h
    · exact (h.emit _).connect ho
  | nData connId l2 =>
    cases ho
    exact h.data connId _
  | nDisconnect connId l2 =>
    cases ho
    split
    · exact (h.data connId _).emit _
    · exact h.emit _
  | nUnitdata addr l2 =>
    cases ho
    exact h.unitdata
  | unsupported l2 =>
    cases ho
    exact h

theorem step_distinct {i : Input} (h : a.Distinct L) (hs : a.step L i = .ok a') :
    a'.Distinct L := by
  obtain ⟨ev, io⟩ := i
  cases ev with
  | scu prim =>
    simp only [Service.step, Service.handle] at hs
    split at hs
    · rename_i b hb
      cases hs
      exact ((h.setNet _).rxPrim hb).emit _
    · cases hs
  | locReqTimer r =>
    cases hs
    unfold Service.locReqTimeout
    split
    · exact h.drop _ _
    · exact h
  | lbPeerTimer p =>
    cases hs
    unfold Service.lbPeerTimeout
    split
    · split
      · exact h.setPeer _ _
      · exact h
    · exact h
  | vty cmd =>
    cases hs
    exact ⟨h.addrs, h.imsis, h.types⟩

theorem reachable_distinct {scu : Bool} (h : Reachable (step L) (init scu) a) : a.Distinct L :=
  h.invariant (fun _ _ _ hd hs => step_distinct hd hs) (init_distinct scu)

end Service

/-- The state of all objects and use counts between two events. -/
structure World.ObjectGraph (L : Libosmo) (w : World) : Prop where
  conn : ∀ x ∈ w.lbConns, x.closing = false ∧ (∃ p ∈ w.lbPeers, x.lbPeer = some p.ptr) ∧
    (∃ q ∈ w.locReqs, x.smlcLocReq = some q.ptr ∧ q.lbConn = some x.ptr ∧
      q.fi.state = .waitTa ∧ q.fi.terminating = false) ∧
    x.useCount = [(.smlcLocReq, 1)]
  req : ∀ q ∈ w.locReqs, ∃! x, x ∈ w.lbConns ∧ x.smlcLocReq = some q.ptr
  subscr : ∀ t ∈ w.subscrs.list, ∃ k : Nat, 0 < k ∧
    w.lbConns.countP (fun x => x.smlcSubscr = some t.ptr) = k ∧ t.useCount = [(.lbConn, (k : Int))]
  subscrListed : ∀ x ∈ w.lbConns, ∀ p, x.smlcSubscr = some p → ∃ t ∈ w.subscrs.list, t.ptr = p
  ptrs : (w.lbPeers.map LbPeer.ptr).Nodup ∧ (w.lbConns.map LbConn.ptr).Nodup ∧
    (w.locReqs.map SmlcLocReq.ptr).Nodup ∧ (w.subscrs.list.map SmlcSubscr.ptr).Nodup
  connIds : (w.lbConns.map LbConn.sccpConnId).Nodup
  imsis : (w.subscrs.list.map SmlcSubscr.imsi).Nodup
  addrs : w.lbPeers.Pairwise fun x y =>
    L.sccpAddrRiCmp x.peerAddr y.peerAddr ≠ 0 ∧ L.sccpAddrRiCmp y.peerAddr x.peerAddr ≠ 0

theorem Service.countP_world {a : Service} {p : SubscrPtr} :
    a.world.lbConns.countP (fun x => x.smlcSubscr = some p) = refs a.sessions p := by
  simp only [Service.world, List.countP_map]
  rfl

theorem Service.world_objectGraph {L : Libosmo} {a : Service} (h : a.WF) (hd : a.Distinct L)
    (hri : L.RiCmpEquivalence) (hid : L.ImsiCmpEq) : a.world.ObjectGraph L where
  conn := by
    intro x hx
    have hpeer := h.world_peer hx
    obtain ⟨s, hs, rfl⟩ := List.mem_map.mp hx
    refine ⟨rfl, hpeer, ⟨s.locReq, ?_, rfl, rfl, rfl, rfl⟩, rfl⟩
    exact List.mem_map_of_mem hs
  req := by
    intro q hq
    obtain ⟨s, hs, rfl⟩ := List.mem_map.mp hq
    refine ⟨s.lbConn, ⟨List.mem_map_of_mem hs, rfl⟩, ?_⟩
    rintro y ⟨hy, hyq⟩
    obtain ⟨t, ht, rfl⟩ := List.mem_map.mp hy
    have hreq : t.req = s.req := Option.some.inj hyq
    rw [List.inj_on_of_nodup_map h.reqs ht hs hreq]
  subscr := by
    intro t ht
    obtain ⟨x, hx, rfl⟩ := List.mem_map.mp ht
    exact ⟨refs a.sessions x.ptr, h.subscrUsed x hx, countP_world, rfl⟩
  subscrListed := by
    intro x hx p hp
    obtain ⟨s, hs, rfl⟩ := List.mem_map.mp hx
    obtain ⟨t, ht, htp⟩ := h.subscrListed s hs p hp
    exact ⟨t.smlcSubscr a.sessions, List.mem_map_of_mem ht, htp⟩
  ptrs := by
    refine ⟨h.peerPtrs, ?_, ?_, ?_⟩
    · show ((a.sessions.map Session.lbConn).map LbConn.ptr).Nodup
      rw [List.map_map]
      exact h.conns
    · show ((a.sessions.map Session.locReq).map SmlcLocReq.ptr).Nodup
      rw [List.map_map]
      exact h.reqs
    · show ((a.subscrs.map (Subscr.smlcSubscr a.sessions)).map SmlcSubscr.ptr).Nodup
      rw [List.map_map]
      exact h.subscrPtrs
  connIds := h.world_connIds
  imsis := by
    show ((a.subscrs.map (Subscr.smlcSubscr a.sessions)).map SmlcSubscr.imsi).Nodup
    rw [List.map_map]
    refine List.pairwise_map.mpr (hd.imsis.imp_of_mem ?_)
    intro x y hx hy hxy heq
    exact hxy ((hid x.imsi y.imsi (hd.types x hx) (hd.types y hy)).mpr heq)
  addrs := hd.addrs.imp fun hxy => ⟨hxy, fun hyx => hxy (hri.symm _ _ hyx)⟩

/-- Every state between two events is in order, whatever led to it. -/
theorem reachableWorld_objectGraph (L : Libosmo) (hri : L.RiCmpEquivalence)
    (hid : L.ImsiCmpEq) {w : World} (h : ReachableWorld L w) : w.ObjectGraph L := by
  obtain ⟨scu, a, hr, hwf, rfl⟩ := h.service
  exact Service.world_objectGraph hwf (Service.reachable_distinct hr) hri hid

/-- Two connections for one subscriber, each with a pending request. -/
theorem reachableWorld_objectGraph_two :
    (Sample.after Sample.twoConns).lbConns.length = 2 ∧
      (Sample.after Sample.twoConns).ObjectGraph Sample.libosmo :=
  ⟨by decide +kernel, reachableWorld_objectGraph Sample.libosmo Sample.libosmo_riCmp
    Sample.libosmo_imsiCmp (Sample.reachable (by decide +kernel))⟩

end OsmoSmlc
