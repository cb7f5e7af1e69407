import OsmoSmlc.Model.Sample
import OsmoSmlc.Service.Independent

/-! The RESET procedure of a peer, started by the peer or by the SMLC: it drops the peer's own
connections without a word on them, and sends one message to the peer. -/
namespace OsmoSmlc
open Osmo

/-- The request that an act hands to the SCCP layer. -/
def Act.down? : Act → Option ScuReq
  | .sapDown req _ _ => some req
  | _ => none

/-- How many of the connections are bound to a subscriber. -/
def boundTo (conns : List LbConn) (p : SubscrPtr) : Nat :=
  conns.countP fun y => y.smlcSubscr = some p

/-- The peer `x` was reset between two states: `pdu` was sent to it, and it is in `done` if the
SCCP layer accepted that. -/
structure World.PeerReset (io : Io) (x : LbPeer) (pdu : BssmapLePdu) (done : LbPeerState)
    (w w' : World) : Prop where
  conns : w'.lbConns = w.lbConns.filter fun y => y.lbPeer ≠ some x.ptr
  terminated : ∀ y ∈ w.lbConns, y.lbPeer = some x.ptr → ∃ r, y.smlcLocReq = some r ∧
    w'.select.locReq? r = none ∧ (newActs w w').count (.locReqCleanup r) = 1
  kept : ∀ y ∈ w.lbConns, y.lbPeer ≠ some x.ptr → ∀ r, y.smlcLocReq = some r →
    w'.select.locReq? r = w.locReq? r ∧ (newActs w w').count (.locReqCleanup r) = 0
  silent : ∀ act ∈ newActs w w', act.connId? = none ∧ ∀ c r pdu, act ≠ .msgDownCo c r pdu
  listed : ∀ p, (w'.subscrs.subscr? p).isSome ↔ ∃ y ∈ w'.lbConns, y.smlcSubscr = some p
  tokens : ∀ p, w'.tokens p + boundTo (w.lbConns.filter fun y => y.lbPeer = some x.ptr) p
    = w.tokens p
  others : ∀ q, q ≠ x.ptr → w'.lbPeer? q = w.lbPeer? q
  encoded : (newActs w w').filterMap Act.encoded? = [.bssmapLe pdu]
  sent : (newActs w w').filterMap Act.down? =
    if io.bssapLeEnc (.bssmapLe pdu) && w.net.scu then [.nUnitdata x.peerAddr (.bssmapLe pdu)]
    else []
  state : w'.PeerIn x.ptr
    (if Effect.accepted io w.net.scu x.peerAddr pdu then done else .waitRxReset)

namespace Effect

variable {io : Io} {scu : Bool} {addr : SccpAddr} {pdu : BssmapLePdu} {p : PeerPtr} {act : Act}

theorem encs_sendCl : (sendCl io scu addr pdu).encs = [.bssmapLe pdu] := by
  have hdown : ∀ req, (down io scu req).encs = [] := by
    intro req
    unfold down
    split <;> rfl
  unfold sendCl
  split
  · simp [hdown]
  · rfl

theorem down_sendCl : (sendCl io scu addr pdu).acts.filterMap Act.down? =
    if io.bssapLeEnc (.bssmapLe pdu) && scu then [.nUnitdata addr (.bssmapLe pdu)] else [] := by
  unfold sendCl down
  cases io.bssapLeEnc (.bssmapLe pdu) with
  | false => rfl
  | true =>
    cases scu with
    | false => rfl
    | true => rfl

theorem acts_discardAll (ss : List Session) : (discardAll p ss).acts = ss.flatMap fun s =>
    [.resetDiscard p (some s.req), .locReqCleanup s.req, .connFree s.conn] := by
  induction ss with
  | nil => rfl
  | cons s ss ih =>
    rw [discardAll, acts_append, ih]
    rfl

theorem encs_discardAll (ss : List Session) : (discardAll p ss).encs = [] := by
  induction ss with
  | nil => rfl
  | cons s ss ih =>
    rw [discardAll, encs_append, ih]
    rfl

theorem count_discardAll (ss : List Session) (r : ReqPtr) :
    (discardAll p ss).acts.count (.locReqCleanup r) = (ss.map Session.req).count r := by
  rw [acts_discardAll]
  induction ss with
  | nil => rfl
  | cons s ss ih =>
    rw [List.flatMap_cons, List.count_append, ih, List.map_cons, List.count_cons]
    by_cases hr : s.req = r
    · simp [hr, Nat.add_comm]
    · simp [hr]

end Effect

namespace Service

variable {L : Libosmo} {io : Io} {a b a' : Service} {x : LbPeer} {pdu : BssmapLePdu}
  {done : LbPeerState} {w' : World} {e : Effect} {n : Net} {p : SubscrPtr}

theorem refs_partition (ss : List Session) (f : Session → Bool) :
    refs (ss.filter f) p + refs (ss.filter fun s => !f s) p = refs ss p := by
  have hsplit := List.countP_eq_countP_filter_add ss (fun s => s.subscr = some p) f
  simpa [refs] using hsplit.symm

theorem boundTo_world (f : LbConn → Bool) :
    boundTo ((a.sessions.map Session.lbConn).filter f) p
      = refs (a.sessions.filter fun s => f s.lbConn) p := by
  unfold boundTo refs
  rw [List.filter_map, List.countP_map]
  rfl

/-- What the discarded sessions and the message to the peer show is a reset of the peer. -/
theorem peerReset_of_shows (pre : List Act) (h : a.WF) (hw : Shows w' a') (ha : a'.WF)
    (hsess : a'.sessions = a.sessions.filter fun s => s.peer ≠ x.ptr)
    (hothers : ∀ q, q ≠ x.ptr →
      KeyedList.lookup LbPeer.ptr a'.lbPeers q = KeyedList.lookup LbPeer.ptr a.lbPeers q)
    (hst : a'.peerState x.ptr
      = some (if Effect.accepted io a.net.scu x.peerAddr pdu then done else .waitRxReset))
    (hd : a.net.Does e a'.net) (hpre : ∀ act ∈ pre, ∃ p st ev, act = .peerDispatch p st ev)
    (hacts : e.acts = pre ++ (Effect.discardAll x.ptr (a.sessions.filter fun s => s.peer = x.ptr)).acts
      ++ (Effect.sendCl io a.net.scu x.peerAddr pdu).acts)
    (hencs : e.encs = (Effect.sendCl io a.net.scu x.peerAddr pdu).encs) :
    a.world.PeerReset io x pdu done w' := by
  let ss := a.sessions.filter fun s => s.peer = x.ptr
  have hnet : w'.net = a'.net := hw.net
  have hconns : w'.lbConns = a'.sessions.map Session.lbConn := hw.lbConns
  have hsel : w'.select = a'.world := hw.select
  have hsub : w'.subscrs = a'.world.subscrs := hw.subscrs
  have hseen : (newActs a.world w').filterMap Act.seen = e.acts := by
    obtain ⟨acts, hlog, hs⟩ := hd.log
    have hlog' : w'.net.log = a.world.net.log ++ acts := hnet ▸ hlog
    rw [newActs_eq hlog', hs]
  have henc : (newActs a.world w').filterMap Act.encoded? = e.encs := by
    obtain ⟨acts, hlog, hs⟩ := hd.encs
    have hlog' : w'.net.log = a.world.net.log ++ acts := hnet ▸ hlog
    rw [newActs_eq hlog', hs]
  have hcl : ∀ act ∈ (Effect.sendCl io a.net.scu x.peerAddr pdu).acts,
      ∃ req rc, act = .sapDown req 0 rc ∧ req.connId? = none := by
    intro act hact
    obtain ⟨rc, rfl⟩ := Effect.sendCl_acts hact
    exact ⟨_, rc, rfl, rfl⟩
  have hcount : ∀ r, (newActs a.world w').count (.locReqCleanup r) = (ss.map Session.req).count r := by
    intro r
    have h1 : pre.count (.locReqCleanup r) = 0 := by
      apply List.count_eq_zero.mpr
      intro hmem
      obtain ⟨p, st, ev, heq⟩ := hpre _ hmem
      cases heq
    have h2 : (Effect.sendCl io a.net.scu x.peerAddr pdu).acts.count (.locReqCleanup r) = 0 := by
      apply List.count_eq_zero.mpr
      intro hmem
      obtain ⟨req, rc, heq, -⟩ := hcl _ hmem
      cases heq
    rw [← count_seen rfl, hseen, hacts, List.count_append, List.count_append, h1, h2,
      Effect.count_discardAll, Nat.zero_add, Nat.add_zero]
  have hnd : (ss.map Session.req).Nodup := h.reqs.sublist (List.filter_sublist.map _)
  have hpeer : ∀ s : Session, s.lbConn.lbPeer = some x.ptr ↔ s.peer = x.ptr := fun s =>
    Option.some_inj
  refine ⟨?_, ?_, ?_, ?_, ?_, ?_, ?_, ?_, ?_, ?_⟩
  · show w'.lbConns = (a.sessions.map Session.lbConn).filter _
    rw [hconns, hsess, List.filter_map]
    congr 1
    exact List.filter_congr fun s _ => by simp [hpeer]
  · intro y hy hyp
    obtain ⟨s, hs, rfl⟩ := List.mem_map.mp hy
    have hmem : s ∈ ss := List.mem_filter.mpr ⟨hs, decide_eq_true ((hpeer s).mp hyp)⟩
    refine ⟨s.req, rfl, ?_, ?_⟩
    · rw [hsel, world_locReq?_none]
      intro t ht heq
      rw [hsess] at ht
      obtain ⟨ht, htp⟩ := List.mem_filter.mp ht
      rw [List.inj_on_of_nodup_map h.reqs ht hs heq] at htp
      exact of_decide_eq_true htp ((hpeer s).mp hyp)
    · rw [hcount]
      exact List.count_eq_one_of_mem hnd (List.mem_map_of_mem hmem)
  · intro y hy hyp r hr
    obtain ⟨s, hs, rfl⟩ := List.mem_map.mp hy
    cases hr
    have hsp : s.peer ≠ x.ptr := fun heq => hyp ((hpeer s).mpr heq)
    constructor
    · have hs' : s ∈ a'.sessions := hsess ▸ List.mem_filter.mpr ⟨hs, decide_eq_true hsp⟩
      rw [hsel, world_locReq? ha hs', world_locReq? h hs]
    · rw [hcount]
      apply List.count_eq_zero.mpr
      intro hmem
      obtain ⟨t, ht, heq⟩ := List.mem_map.mp hmem
      obtain ⟨ht, htp⟩ := List.mem_filter.mp ht
      rw [List.inj_on_of_nodup_map h.reqs ht hs heq] at htp
      exact hsp (of_decide_eq_true htp)
  · have hP : ∀ act : Act, (∀ b, act.seen = some b →
        b.connId? = none ∧ ∀ c r pdu, b ≠ .msgDownCo c r pdu) →
        act.connId? = none ∧ ∀ c r pdu, act ≠ .msgDownCo c r pdu := by
      intro act hact
      cases act with
      | bssapLeEnc pdu msg => exact ⟨rfl, by simp⟩
      | msgbFree msg => exact ⟨rfl, by simp⟩
      | sapDown req msg rc => exact ⟨(hact _ rfl).1, by simp⟩
      | _ => exact hact _ rfl
    apply forall_of_seen hP
    intro act hmem
    rw [hseen, hacts, List.append_assoc, List.mem_append, List.mem_append] at hmem
    rcases hmem with hmem | hmem | hmem
    · obtain ⟨p, st, ev, rfl⟩ := hpre _ hmem
      exact ⟨rfl, by simp⟩
    · rw [Effect.acts_discardAll] at hmem
      obtain ⟨s, -, hmem⟩ := List.mem_flatMap.mp hmem
      simp only [List.mem_cons, List.not_mem_nil, or_false] at hmem
      rcases hmem with rfl | rfl | rfl
      · exact ⟨rfl, by simp⟩
      · exact ⟨rfl, by simp⟩
      · exact ⟨rfl, by simp⟩
    · obtain ⟨req, rc, rfl, hreq⟩ := hcl _ hmem
      exact ⟨hreq, by simp⟩
  · intro q
    have hlook : a'.world.subscrs.subscr? q
        = (KeyedList.lookup Subscr.ptr a'.subscrs q).map (Subscr.smlcSubscr a'.sessions) :=
      KeyedList.lookup_map (Subscr.smlcSubscr a'.sessions) a'.subscrs
    rw [hsub, hlook, Option.isSome_map, hconns]
    constructor
    · intro hsome
      obtain ⟨y, hy⟩ := Option.isSome_iff_exists.mp hsome
      obtain ⟨hmem, rfl⟩ := KeyedList.lookup_some_mem hy
      obtain ⟨s, hs, hsp⟩ := refs_pos_iff.mp (ha.subscrUsed y hmem)
      exact ⟨s.lbConn, List.mem_map_of_mem hs, hsp⟩
    · rintro ⟨y, hy, hyq⟩
      obtain ⟨s, hs, rfl⟩ := List.mem_map.mp hy
      obtain ⟨z, hz, rfl⟩ := ha.subscrListed s hs q hyq
      rw [KeyedList.lookup_of_mem ha.subscrPtrs hz]
      rfl
  · intro q
    have htok : w'.tokens q = refs a'.sessions q := by
      rw [← world_tokens ha q]
      unfold World.tokens
      rw [hsub]
    have hpart := refs_partition (p := q) a.sessions fun s => s.peer = x.ptr
    have hne : (a.sessions.filter fun s => !decide (s.peer = x.ptr)) = a'.sessions := by
      rw [hsess]
      exact List.filter_congr fun s _ => by simp
    rw [hne] at hpart
    show _ + (boundTo ((a.sessions.map Session.lbConn).filter _) q : Int) = _
    rw [htok, world_tokens h, boundTo_world]
    have hsame : (a.sessions.filter fun s => decide (s.lbConn.lbPeer = some x.ptr))
        = a.sessions.filter fun s => s.peer = x.ptr :=
      List.filter_congr fun s _ => by simp [hpeer]
    rw [hsame]
    omega
  · intro q hq
    show KeyedList.lookup LbPeer.ptr w'.lbPeers q = _
    rw [hw.lbPeers]
    exact hothers q hq
  · rw [henc, hencs, Effect.encs_sendCl]
  · have hf : ∀ act : Act, act.down? = act.seen.bind Act.down? := by
      intro act
      cases act <;> rfl
    rw [← filterMap_seen hf, hseen, hacts, List.filterMap_append, List.filterMap_append,
      Effect.down_sendCl]
    have h1 : pre.filterMap Act.down? = [] := by
      apply List.filterMap_eq_nil_iff.mpr
      intro act hact
      obtain ⟨p, st, ev, rfl⟩ := hpre _ hact
      rfl
    have h2 : (Effect.discardAll x.ptr ss).acts.filterMap Act.down? = [] := by
      apply List.filterMap_eq_nil_iff.mpr
      intro act hact
      rw [Effect.acts_discardAll] at hact
      obtain ⟨s, -, hact⟩ := List.mem_flatMap.mp hact
      simp only [List.mem_cons, List.not_mem_nil, or_false] at hact
      rcases hact with rfl | rfl | rfl <;> rfl
    rw [h1, h2]
    rfl
  · obtain ⟨y, hy, hys⟩ := peerIn_world.mpr hst
    refine ⟨y, ?_, hys⟩
    show KeyedList.lookup LbPeer.ptr w'.lbPeers x.ptr = some y
    rw [hw.lbPeers]
    exact hy

theorem peerState_mem (h : a.WF) (hx : x ∈ a.lbPeers) : a.peerState x.ptr = some x.fi.state := by
  unfold peerState
  rw [KeyedList.lookup_of_mem h.peerPtrs hx]
  rfl

theorem peerState_set {st : LbPeerState} (h : a.WF) (hx : x ∈ a.lbPeers) :
    (a.setPeer x.ptr st).peerState x.ptr = some st := by
  rw [peerState_setPeer, peerState_mem h hx]
  rfl

theorem rxReset_peerReset {msg : MsgbPtr} (h : a.WF) (hx : x ∈ a.lbPeers)
    (hw : Shows w' (a.rxReset io x msg)) : a.world.PeerReset io x .resetAck .ready w' := by
  have hdisc : a.net.Does _ (a.discardAll x.ptr).net := Net.discardAll_does _
  have hsend : (a.discardAll x.ptr).net.Does _ _ ∧ _ :=
    @Net.sendResetAck_does io _ x.peerAddr msg
  rw [discardAll_scu] at hsend
  refine peerReset_of_shows [] h hw h.rxReset rfl ?_ ?_ (hdisc.trans hsend.1) (by simp) rfl
    ?_
  · intro q hq
    exact KeyedList.lookup_update_ne (fun _ => rfl) hq
  · rw [← hsend.2]
    exact peerState_set (a := a.discardAll x.ptr) (h.discardAll x.ptr) hx
  · rw [Effect.encs_append, Effect.encs_discardAll, List.nil_append]

theorem reset_peerReset (h : a.WF) (hx : x ∈ a.lbPeers)
    (hw : Shows w' ((a.discardAll x.ptr).reset io x)) :
    a.world.PeerReset io x .reset .waitRxResetAck w' := by
  have hdisc : a.net.Does _ (a.discardAll x.ptr).net := Net.discardAll_does _
  have hsend : (a.discardAll x.ptr).net.Does _ _ ∧ _ :=
    @Net.sendReset_does io _ x.peerAddr
  rw [discardAll_scu] at hsend
  refine peerReset_of_shows [] h hw ((h.discardAll _).reset discardAll_peer) rfl ?_ ?_
    (hdisc.trans hsend.1) (by simp) rfl ?_
  · intro q hq
    exact KeyedList.lookup_update_ne (fun _ => rfl) hq
  · rw [← hsend.2]
    exact peerState_set (a := a.discardAll x.ptr) (h.discardAll x.ptr) hx
  · rw [Effect.encs_append, Effect.encs_discardAll, List.nil_append]

/-- Finding or creating a peer changes no other peer. -/
theorem peer_lookup_ne {addr : SccpAddr} {q : PeerPtr} (hq : q ≠ (a.peer L addr).1.ptr) :
    KeyedList.lookup LbPeer.ptr (a.peer L addr).2.lbPeers q
      = KeyedList.lookup LbPeer.ptr a.lbPeers q := by
  unfold peer at hq ⊢
  split
  · rfl
  · rename_i hnone
    rw [hnone] at hq
    exact KeyedList.lookup_cons_ne (Ne.symm hq)

theorem step_peerReset {addr : SccpAddr} {l2 : List UInt8} (h : a.WF)
    (hm : L.bssmapLeMsgt l2 = .reset)
    (hs : OsmoSmlc.step L a.world ⟨.scu (.nUnitdata addr l2), io⟩ = .ok w') :
    a.world.PeerReset io (a.peer L addr).1 .resetAck .ready w' := by
  let x := (a.peer L addr).1
  obtain ⟨n, hstep, hd⟩ := step_resetFrom (L := L) (a := a) (i := ⟨.scu (.nUnitdata addr l2), io⟩)
    rfl hm
  have hwf := step_wf h hstep
  rw [step_world L h, hstep] at hs
  cases hs
  refine peerReset_of_shows [.peerDispatch x.ptr x.fi.state .msgUpCl,
    .peerDispatch x.ptr x.fi.state .rxReset] h (world_shows hwf) hwf ?_ ?_ ?_ hd ?_ rfl ?_
  · show (a.peer L addr).2.sessions.filter _ = _
    rw [peer_sessions]
  · intro q hq
    have hset : KeyedList.lookup LbPeer.ptr (((a.peer L addr).2.cut (fun s => s.peer ≠ x.ptr) n).setPeer
        x.ptr (resetState io a.net.scu x)).lbPeers q
          = KeyedList.lookup LbPeer.ptr (a.peer L addr).2.lbPeers q :=
      KeyedList.lookup_update_ne (fun _ => rfl) hq
    exact hset.trans (peer_lookup_ne hq)
  · exact peerState_set (a := (a.peer L addr).2) h.peer peer_mem
  · intro act hact
    simp only [List.mem_cons, List.not_mem_nil, or_false] at hact
    rcases hact with rfl | rfl
    · exact ⟨_, _, _, rfl⟩
    · exact ⟨_, _, _, rfl⟩
  · show [] ++ ([] ++ [] ++ (Effect.discardAll _ _).encs ++ _) = _
    rw [Effect.encs_discardAll]
    rfl

end Service

/-- A RESET of a listed peer is received, or the SMLC resets it, in any of its states and with
anything on record; the event of a RESET covers peers that are not listed yet. -/
theorem peerReset_drops (L : Libosmo) (io : Io) (w : World) (h : ReachableWorld L w) :
    (∀ x ∈ w.lbPeers, ∀ n msg, ∃ w', lbPeerRxReset io x.ptr msg (w.setNet n) = .ok ((), w') ∧
      (w.setNet n).PeerReset io x .resetAck .ready w') ∧
    (∀ x ∈ w.lbPeers, ∀ n, ∃ w', lbPeerReset io x.ptr (w.setNet n) = .ok ((), w') ∧
      (w.setNet n).PeerReset io x .reset .waitRxResetAck w') ∧
    ∀ addr l2 w', L.bssmapLeMsgt l2 = .reset →
      step L w ⟨.scu (.nUnitdata addr l2), io⟩ = .ok w' →
      w.PeerReset io (w.peerOf L addr) .resetAck .ready w' := by
  obtain ⟨scu, a, hr, hwf, rfl⟩ := h.service
  refine ⟨?_, ?_, ?_⟩
  · intro x hx n msg
    have hn : (a.setNet n).WF := hwf.setNet n
    obtain ⟨w', hrun, hw⟩ := lbPeerRxReset_shows io msg (Service.world_shows hn) hn hx
    exact ⟨w', hrun, Service.rxReset_peerReset hn hx hw⟩
  · intro x hx n
    have hn : (a.setNet n).WF := hwf.setNet n
    obtain ⟨w', hrun, hw⟩ := lbPeerReset_discards io (Service.world_shows hn) hn hx
    exact ⟨w', hrun, Service.reset_peerReset hn hx hw⟩
  · intro addr l2 w' hm hs
    rw [Service.peerOf_world]
    exact Service.step_peerReset hwf hm hs

/-- Two connections of a peer and its RESET, with a connection of another peer between them that
shares the subscriber of one of them. -/
theorem peerReset_drops_two :
    let is : List Input := [Sample.resetFrom Sample.addrA, Sample.resetFrom Sample.addrB,
      Sample.connect 1 Sample.addrA Sample.msgRequestA,
      Sample.connect 2 Sample.addrB Sample.msgRequestA,
      Sample.connect 3 Sample.addrA Sample.msgRequestB]
    let w := Sample.after is
    let w' := Sample.after (is ++ [Sample.resetFrom Sample.addrA])
    w.PeerReset Sample.io (w.peerOf Sample.libosmo Sample.addrA) .resetAck .ready w' ∧
    w'.lbConns.map LbConn.sccpConnId = [2] ∧
    w'.subscrs.list.map SmlcSubscr.imsi = [Sample.imsiA] := by
  intro is w w'
  have hr : ReachableWorld Sample.libosmo w := Sample.reachable (by decide +kernel)
  have hs : Sample.survives (is ++ [Sample.resetFrom Sample.addrA]) = true := by decide +kernel
  exact ⟨(peerReset_drops Sample.libosmo Sample.io w hr).2.2 Sample.addrA Sample.msgReset _
    (by decide) (Sample.step_after hs), by decide +kernel, by decide +kernel⟩

end OsmoSmlc
