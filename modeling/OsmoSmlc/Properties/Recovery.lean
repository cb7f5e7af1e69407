import OsmoSmlc.Properties.Replies
import OsmoSmlc.Properties.TwoPaths

/-! Whatever has happened, one RESET brings a peer back into service: its next request is
pending, asks for the TA and is answered, and leaves nothing behind. -/
namespace OsmoSmlc
open Osmo

/-- Every message is encoded, and the SCCP layer accepts it. -/
structure Io.Accepts (io : Io) : Prop where
  bssapLeEnc : ∀ pdu, io.bssapLeEnc pdu = true
  sapDown : ∀ req, io.sapDown req = 0

/-- A request of the peer on a free id leads from `w` to `u`, and what ends it on to `v`. -/
structure World.Served (connId : ConnId) (ends : BssapLePdu) (w u v : World) : Prop where
  pending : ∃ x ∈ u.lbConns, x.sccpConnId = connId ∧ ∃ r q, x.smlcLocReq = some r ∧
    u.locReq? r = some q ∧ q.fi.state = .waitTa
  asked : u.downs = w.downs ++ [.nData connId (.bssmapLe (.connOrientedInfo .taRequest))]
  answered : (ends = .bssmapLe .performLocAbort ∧ v.downs = u.downs) ∨
    ∃ resp, v.downs = u.downs ++ [.nData connId (.bssmapLe (.performLocResp resp))]
  lbPeers : v.lbPeers = w.lbPeers
  lbConns : v.lbConns = w.lbConns
  locReqs : v.locReqs = w.locReqs
  subscrs : v.subscrs.list = w.subscrs.list

/-- Every request of the peer at an address will be served, once its TA comes. -/
def World.Serves (L : Libosmo) (io : Io) (addr : SccpAddr) (w : World) : Prop :=
  ∀ connId l2 pdu l2' ends, w.connById connId = none → l2 ≠ [] →
    L.bssapLeDec l2 = some (.bssmapLe (.performLocReq pdu)) →
    (∀ ta, pdu.apdu ≠ some (.taLayer3 ta)) →
    L.bssapLeDec l2' = some ends → ends.endsRequest = true →
    ∃ u v, step L w ⟨.scu (.nConnect connId addr l2), io⟩ = .ok u ∧
      step L u ⟨.scu (.nData connId l2'), io⟩ = .ok v ∧ World.Served connId ends w u v

theorem BssapLePdu.eq_abort {pdu : BssapLePdu} (h : pdu.msg = .ending .locAbort) :
    pdu = .bssmapLe .performLocAbort := by
  cases pdu with
  | other discr => cases h
  | bssmapLe pdu =>
    cases pdu with
    | performLocAbort => rfl
    | connOrientedInfo apdu => cases apdu <;> cases h
    | _ => cases h

namespace Effect

variable {L : Libosmo} {io : Io} {cells : CellStore} {s : Session}

theorem downs_sendCo (hio : io.Accepts) {pdu : BssmapLePdu} :
    (sendCo io true s pdu).downs = [.nData s.connId (.bssmapLe pdu)] := by
  unfold sendCo
  rw [if_pos (hio.bssapLeEnc _)]
  rfl

theorem downs_gotTa (hio : io.Accepts) {k : CellId} {ta : UInt8} :
    ∃ resp, (gotTa L io true cells s k ta).downs
      = [.nData s.connId (.bssmapLe (.performLocResp resp))] := by
  unfold gotTa failed
  split
  · exact ⟨_, downs_sendCo hio⟩
  · rw [if_pos (hio.bssapLeEnc _)]
    exact ⟨_, downs_sendCo hio⟩

/-- Only an abort goes without a response. -/
theorem downs_answer (hio : io.Accepts) (k : Ending) :
    k = .locAbort ∧ (answer L io true cells s k).downs = [] ∨
    ∃ resp, (answer L io true cells s k).downs
      = [.nData s.connId (.bssmapLe (.performLocResp resp))] := by
  cases k with
  | locAbort => exact .inl ⟨rfl, rfl⟩
  | ta cellId ta => exact .inr (downs_gotTa hio)
  | failure cause => exact .inr ⟨_, downs_sendCo hio⟩

end Effect

namespace Service

variable {L : Libosmo} {io : Io} {a a' b : Service} {s : Session} {connId : ConnId}
  {addr : SccpAddr} {x : LbPeer} {st : LbPeerState} {l2 : List UInt8} {pdu : PerformLocReq}

theorem peer_of_find (h : a.lbPeers.find? (fun y => L.sccpAddrRiCmp addr y.peerAddr = 0) = some x) :
    a.peer L addr = (x, a) := by
  simp only [peer, h]

/-- A peer that was looked up or created is found from then on, whatever state it enters. -/
theorem peer_setPeer (hri : L.RiCmpEquivalence) :
    ((a.peer L addr).2.setPeer (a.peer L addr).1.ptr st).peer L addr
      = ({ (a.peer L addr).1 with fi := ⟨st, false, lbPeerFsm.timeout st⟩ },
        (a.peer L addr).2.setPeer (a.peer L addr).1.ptr st) := by
  let x := (a.peer L addr).1
  let b := (a.peer L addr).2
  have hfind : b.lbPeers.find? (fun y => L.sccpAddrRiCmp addr y.peerAddr = 0) = some x := by
    simp only [b, x, peer]
    split
    · assumption
    · simp [hri.refl]
  have hset : (b.setPeer x.ptr st).lbPeers.find? (fun y => L.sccpAddrRiCmp addr y.peerAddr = 0)
      = some { x with fi := ⟨st, false, lbPeerFsm.timeout st⟩ } := by
    show (List.map _ b.lbPeers).find? _ = _
    rw [List.find?_map]
    have hcongr : ((fun y : LbPeer => decide (L.sccpAddrRiCmp addr y.peerAddr = 0)) ∘ fun y =>
        if y.ptr = x.ptr then { y with fi := ⟨st, false, lbPeerFsm.timeout st⟩ } else y)
        = fun y => decide (L.sccpAddrRiCmp addr y.peerAddr = 0) := by
      funext y
      simp only [Function.comp_apply]
      split
      · rfl
      · rfl
    rw [hcongr, hfind]
    simp
  exact peer_of_find hset

/-- A peer in READY is a listed one. -/
theorem peer_of_ready (hx : (a.peer L addr).1.fi.state = .ready) : (a.peer L addr).2 = a := by
  unfold peer at hx ⊢
  split at hx
  · rfl
  · cases hx

/-- What is left of the binding of a session when the session is not. -/
theorem bindRequest_unused (h : a.WF) :
    (a.bindRequest L pdu).2.subscrs.filter (fun x => 0 < refs a.sessions x.ptr) = a.subscrs := by
  have hall : a.subscrs.filter (fun x => 0 < refs a.sessions x.ptr) = a.subscrs :=
    List.filter_eq_self.mpr fun x hx => by simpa using h.subscrUsed x hx
  by_cases ht : pdu.imsi.type = .imsi
  · rw [bindRequest_imsi ht]
    unfold bind
    split
    · exact hall
    · have hnew : ¬0 < refs a.sessions a.nextSubscr := by
        intro hpos
        obtain ⟨s, hs, hp⟩ := refs_pos_iff.mp hpos
        obtain ⟨x, hx, hxp⟩ := h.subscrListed s hs _ hp
        exact absurd hxp (Nat.ne_of_lt (h.subscrBound x hx))
      show (a.subscrs ++ [_]).filter _ = _
      rw [List.filter_append, hall]
      simp [hnew]
  · rw [bindRequest_other ht]
    exact hall

/-- A request to a peer in READY is pending from then on, and the TA has been asked for. -/
theorem step_pending (hio : io.Accepts) (hscu : a.net.scu = true)
    (hx : (a.peer L addr).1.fi.state = .ready) (hfree : a.world.connById connId = none)
    (hl2 : l2 ≠ []) (hdec : L.bssapLeDec l2 = some (.bssmapLe (.performLocReq pdu)))
    (hta : ∀ ta, pdu.apdu ≠ some (.taLayer3 ta)) :
    ∃ b n n', a.step L ⟨.scu (.nConnect connId addr l2), io⟩ = .ok b ∧
      b = (a.setNet n).withSession L (a.peer L addr).1.ptr connId pdu n' ∧
      b.world.downs = a.world.downs
        ++ [.nData connId (.bssmapLe (.connOrientedInfo .taRequest))] := by
  have hm : L.msg l2 = .request pdu := by
    rw [Libosmo.msg, hdec]
    rfl
  cases hb : a.step L ⟨.scu (.nConnect connId addr l2), io⟩ with
  | error e =>
    obtain ⟨⟨_, _, _, pdu', _, hev, -, -, -, -, hpdu, hends⟩, -⟩ := step_error hb
    cases hev
    rw [hdec] at hpdu
    cases hpdu
    cases hends
  | ok b =>
    obtain ⟨⟨n, n', hopen⟩, heff⟩ := step_connect_request hl2 hfree hx hm hb
    rw [peer_of_ready hx, openSession_pending hta] at hopen
    rw [openSessionEffect_pending hta] at heff
    refine ⟨b, n, n', rfl, hopen, ?_⟩
    rw [world_downs hb, heff, hscu]
    simp only [Effect.downs_append, Effect.downs_sendCo hio]
    rfl

/-- A peer in READY is served. -/
theorem serves_of_ready (h : a.WF) (hscu : a.net.scu = true) (hio : io.Accepts)
    (hx : (a.peer L addr).1.fi.state = .ready) : a.world.Serves L io addr := by
  intro connId l2 pdu l2' ends hfree hl2 hdec hta hdec' hends
  obtain ⟨k, hk⟩ := Libosmo.msg_ending_iff.mpr ⟨ends, hdec', hends⟩
  obtain ⟨b, n, n', hb, hopen, hasked⟩ := step_pending hio hscu hx hfree hl2 hdec hta
  let s := (a.setNet n).newSession L (a.peer L addr).1.ptr connId pdu
  have hwf : b.WF := step_wf h hb
  have hbscu : b.net.scu = true := (step_does hb).scu.trans hscu
  have hs : s ∈ b.sessions := by
    rw [hopen]
    exact List.mem_cons_self
  obtain ⟨c, hc⟩ : ∃ c, b.step L ⟨.scu (.nData s.connId l2'), io⟩ = .ok c := ⟨_, rfl⟩
  obtain ⟨⟨n'', hdrop⟩, heff⟩ := step_data_ending hwf hs hk hc
  have hcb : ∀ t ∈ (a.setNet n).sessions, t.conn < (a.setNet n).next.conn := h.connBound
  rw [hopen, withSession_drop hcb] at hdrop
  have hsubscrs : c.subscrs = a.subscrs := by
    rw [hdrop]
    exact bindRequest_unused (a := a.setNet n) (h.setNet n)
  have hframe : c.lbPeers = a.lbPeers ∧ c.sessions = a.sessions := by
    rw [hdrop, bindRequest_frame]
    exact ⟨rfl, rfl⟩
  refine ⟨b.world, c.world, ?_, ?_, ?_⟩
  · rw [step_world L h, hb]
    rfl
  · rw [step_world L hwf]
    show (b.step L ⟨.scu (.nData s.connId l2'), io⟩).map world = _
    rw [hc]
    rfl
  · refine ⟨⟨s.lbConn, List.mem_map_of_mem hs, rfl, s.req, s.locReq, rfl, world_locReq? hwf hs, rfl⟩,
      hasked, ?_, hframe.1, ?_, ?_, ?_⟩
    · have hdowns : c.world.downs = b.world.downs
          ++ (Effect.answer L io true b.cellLocations s k).downs := by
        rw [world_downs hc, heff, finishEffect, hbscu]
        simp only [Effect.downs_append]
        rw [show (Effect.ended s).downs = [] from rfl, List.append_nil]
        rfl
      rw [hdowns]
      have hans : k = .locAbort ∧ (Effect.answer L io true b.cellLocations s k).downs = [] ∨ _ :=
        Effect.downs_answer hio k
      rcases hans with ⟨habort, hnone⟩ | ⟨resp, hresp⟩
      · refine .inl ⟨BssapLePdu.eq_abort ?_, by rw [hnone, List.append_nil]⟩
        rw [← habort, ← hk, Libosmo.msg, hdec']
      · exact .inr ⟨resp, congrArg (b.world.downs ++ ·) hresp⟩
    · exact congrArg (List.map Session.lbConn) hframe.2
    · exact congrArg (List.map Session.locReq) hframe.2
    · show c.subscrs.map (Subscr.smlcSubscr c.sessions) = a.subscrs.map (Subscr.smlcSubscr a.sessions)
      rw [hsubscrs, hframe.2]

theorem resetState_accepted (hio : io.Accepts) : resetState io true x = .ready := by
  unfold resetState Effect.accepted
  simp [hio.bssapLeEnc, hio.sapDown]

/-- After a RESET from the peer. -/
theorem reset_serves (hri : L.RiCmpEquivalence) (h : a.WF) (hscu : a.net.scu = true)
    (hio : io.Accepts) (hm : L.bssmapLeMsgt l2 = .reset) :
    ∃ b, a.step L ⟨.scu (.nUnitdata addr l2), io⟩ = .ok b ∧ b.world.Serves L io addr := by
  obtain ⟨n, hstep, hd⟩ := step_resetFrom (L := L) (a := a) (i := ⟨.scu (.nUnitdata addr l2), io⟩) rfl hm
  refine ⟨_, hstep, ?_⟩
  have hwf := step_wf h hstep
  have hbscu := (step_does hstep).scu.trans hscu
  refine serves_of_ready hwf hbscu hio ?_
  rw [← setPeer_cut, cut_peer, peer_setPeer hri]
  show resetState io a.net.scu _ = _
  rw [hscu, resetState_accepted hio]

/-- An N-CONNECT from a peer in WAIT_RX_RESET makes the SMLC send a RESET. -/
theorem step_connect_resets (hio : io.Accepts) (hscu : a.net.scu = true)
    (hx : (a.peer L addr).1.fi.state = .waitRxReset) (hfree : a.world.connById connId = none)
    (hl2 : l2 ≠ []) : ∃ n, a.step L ⟨.scu (.nConnect connId addr l2), io⟩
      = .ok (((a.peer L addr).2.setPeer (a.peer L addr).1.ptr .waitRxResetAck).setNet n) := by
  have hlen : l2.length ≠ 0 := fun h => hl2 (List.length_eq_zero_iff.mp h)
  have hany : ¬a.sessions.any (fun s => s.connId = connId) = true := by
    rw [connTo_world_none] at hfree
    intro h
    obtain ⟨s, hs, hid⟩ := List.any_eq_true.mp h
    exact hfree s hs (by simpa using hid)
  let b := (a.setNet a.net.takeMsgb).emit (.connResp connId)
  let x := (a.peer L addr).1
  let c := ((a.peer L addr).2.setNet b.net).emit (.peerDispatch x.ptr x.fi.state .msgUpCoInitial)
  have hbp : b.peer L addr = (x, (a.peer L addr).2.setNet b.net) := peer_setNet (a := a) (n := b.net)
  have hcon : b.connect L io connId addr (L.msg l2) = .ok (c.reset io x) := by
    unfold connect
    have hanyb : ¬b.sessions.any (fun s => s.connId = connId) = true := hany
    rw [if_neg hanyb, hbp]
    simp only [connectTo, hx, x, c]
  have hst : (c.net.sendReset io x.peerAddr).1 = .waitRxResetAck := by
    have hcscu : c.net.scu = true := hscu
    rw [Net.sendReset_does.2, hcscu]
    simp [Effect.accepted, hio.bssapLeEnc, hio.sapDown]
  refine ⟨(c.net.sendReset io x.peerAddr).2.emit (.msgbFree a.net.nextMsgb), ?_⟩
  have hprim : (a.setNet a.net.takeMsgb).rxPrim L io a.net.nextMsgb (.nConnect connId addr l2)
      = .ok (c.reset io x) := by
    simp only [rxPrim, if_neg hlen]
    exact hcon
  simp only [step, handle, hprim]
  rw [reset, hst]
  rfl

/-- A RESET ACKNOWLEDGE that the peer was waiting for. -/
theorem step_resetAck (hx : (a.peer L addr).1.fi.state = .waitRxResetAck)
    (hm : L.bssmapLeMsgt l2 = .resetAck) : ∃ n, a.step L ⟨.scu (.nUnitdata addr l2), io⟩
      = .ok (((a.peer L addr).2.setPeer (a.peer L addr).1.ptr .ready).setNet n) := by
  let x := (a.peer L addr).1
  have hpeer : (a.setNet a.net.takeMsgb).peer L addr = (x, (a.peer L addr).2.setNet a.net.takeMsgb) :=
    peer_setNet
  let c := (((a.peer L addr).2.setNet a.net.takeMsgb).emit
    (.peerDispatch x.ptr x.fi.state .msgUpCl)).emit (.peerDispatch x.ptr x.fi.state .rxResetAck)
  refine ⟨c.net.emit (.msgbFree a.net.nextMsgb), ?_⟩
  simp only [step, handle, rxPrim, unitdata, hm, hpeer, x, if_pos hx]
  rfl

/-- After a RESET that the SMLC has sent and the peer has acknowledged. -/
theorem ownReset_serves {l2' : List UInt8} (hri : L.RiCmpEquivalence) (h : a.WF)
    (hscu : a.net.scu = true) (hio : io.Accepts) (hx : (a.peer L addr).1.fi.state = .waitRxReset)
    (hfree : a.world.connById connId = none) (hl2 : l2 ≠ []) (hm : L.bssmapLeMsgt l2' = .resetAck) :
    ∃ c, run (step L) a [⟨.scu (.nConnect connId addr l2), io⟩, ⟨.scu (.nUnitdata addr l2'), io⟩]
      = .ok c ∧ c.world.Serves L io addr := by
  obtain ⟨n, hb⟩ := step_connect_resets (L := L) hio hscu hx hfree hl2
  let b := ((a.peer L addr).2.setPeer (a.peer L addr).1.ptr .waitRxResetAck).setNet n
  have hbx : (b.peer L addr).1.fi.state = .waitRxResetAck := by
    simp only [b, peer_setNet, peer_setPeer hri]
  obtain ⟨n', hc⟩ : ∃ n', b.step L ⟨.scu (.nUnitdata addr l2'), io⟩ = .ok (Service.setNet n' _) :=
    step_resetAck hbx hm
  refine ⟨_, run_cons_ok.mpr ⟨b, hb, run_cons_ok.mpr ⟨_, hc, rfl⟩⟩, ?_⟩
  have hwf := step_wf (step_wf h hb) hc
  have hcscu := (step_does hc).scu.trans ((step_does hb).scu.trans hscu)
  refine serves_of_ready hwf hcscu hio ?_
  simp only [peer_setNet, peer_setPeer hri]

end Service

/-- From every state reached, and whatever is left of the past, one RESET brings a peer back
into service; so does an N-CONNECT to a peer in WAIT_RX_RESET, or to one not known yet, by
which the SMLC comes to send a RESET that is then acknowledged. In service, a request on a
free id is pending, its TA is asked for, it is answered, and nothing is left of it. -/
theorem service_recovers (L : Libosmo) (hri : L.RiCmpEquivalence) {w : World}
    (hw : ReachableWorld L w) (hscu : w.net.scu = true) {io : Io} (hio : io.Accepts)
    (addr : SccpAddr) :
    (∀ l2, L.bssmapLeMsgt l2 = .reset →
      ∃ u, step L w ⟨.scu (.nUnitdata addr l2), io⟩ = .ok u ∧ u.Serves L io addr) ∧
    (∀ connId l2 l2', (w.peerOf L addr).fi.state = .waitRxReset → w.connById connId = none →
      l2 ≠ [] → L.bssmapLeMsgt l2' = .resetAck →
      ∃ u, run (step L) w [⟨.scu (.nConnect connId addr l2), io⟩, ⟨.scu (.nUnitdata addr l2'), io⟩]
        = .ok u ∧ u.Serves L io addr) := by
  obtain ⟨scu, a, -, hwf, rfl⟩ := hw.service
  constructor
  · intro l2 hm
    obtain ⟨b, hb, hserves⟩ := Service.reset_serves hri hwf hscu hio hm
    refine ⟨b.world, ?_, hserves⟩
    rw [step_world L hwf, hb]
    rfl
  · intro connId l2 l2' hx hfree hl2 hm
    rw [Service.peerOf_world] at hx
    obtain ⟨c, hc, hserves⟩ := Service.ownReset_serves hri hwf hscu hio hx hfree hl2 hm
    refine ⟨c.world, ?_, hserves⟩
    rw [run_world L hwf, hc]
    rfl

/-- A peer is reset while two of its requests are pending, and asks again on one of their ids. -/
theorem service_recovers_two :
    ∃ u v x, step Sample.libosmo (Sample.after Sample.twoConns) (Sample.resetFrom Sample.addrA) = .ok u ∧
      step Sample.libosmo u (Sample.connect 1 Sample.addrA Sample.msgRequestA) = .ok v ∧
      step Sample.libosmo v (Sample.data 1 Sample.msgTaResponse) = .ok x ∧ x.lbConns = u.lbConns := by
  have hw : ReachableWorld Sample.libosmo (Sample.after Sample.twoConns) :=
    Sample.reachable (by decide +kernel)
  have hio : Sample.io.Accepts := ⟨fun _ => rfl, fun _ => rfl⟩
  obtain ⟨u, hu, hserves⟩ := (service_recovers Sample.libosmo Sample.libosmo_riCmp hw
    (by decide +kernel) hio Sample.addrA).1 Sample.msgReset (by decide +kernel)
  have hafter : Sample.after (Sample.twoConns ++ [Sample.resetFrom Sample.addrA]) = u := by
    have hs : step Sample.libosmo (Sample.after Sample.twoConns) (Sample.resetFrom Sample.addrA) = _ :=
      Sample.step_after (by decide +kernel)
    exact Except.ok.inj (hs.symm.trans hu)
  have hfree : u.connById 1 = none := by
    rw [← hafter]
    decide +kernel
  obtain ⟨v, x, hv, hx, hserved⟩ := hserves 1 Sample.msgRequestA (Sample.request Sample.imsiA)
    Sample.msgTaResponse (.bssmapLe (.connOrientedInfo (.taResponse 42 1))) hfree (by decide)
    (by decide +kernel) (fun ta h => by cases h) (by decide +kernel) rfl
  exact ⟨u, v, x, hu, hv, hx, hserved.lbConns⟩

end OsmoSmlc
