import OsmoSmlc.Service.Resets

/-! The process does what the service does: from the objects of a service in order, an
event leads to the objects of the service after it, or both die of the same error. -/
namespace OsmoSmlc
open Osmo

/-- As `Follows`, with the value that the body returns. -/
def FollowsWith {α : Type} (v : α) (x : Except Crash (α × World)) (b : Except Crash Service) :
    Prop :=
  match b with
  | .ok a => ∃ w, x = .ok (v, w) ∧ Shows w a
  | .error e => x = .error e

section Follows

variable {α β : Type} {v : α} {w : World} {x : M α} {y : α → M β} {b : Except Crash Service}

theorem Follows.pure (h : Follows (x w) b) (c : β) :
    FollowsWith c ((x >>= fun _ => pure c) w) b := by
  cases b with
  | ok a =>
    obtain ⟨v, w', hx, hsh⟩ := h
    exact ⟨w', (Prog.bind_ok hx).trans rfl, hsh⟩
  | error e => exact Prog.bind_error h

end Follows

variable (L : Libosmo) (io : Io) {a : Service} {w : World} {x : LbPeer} {connId : ConnId}
  {msg : RxMsgb}

section Dispatch

theorem lbPeerDispatchWith_action (allstate : M Unit) (ev : LbPeerUp)
    (h : Shows w a) (hw : a.WF) (hx : x ∈ a.lbPeers)
    (hall : lbPeerFsm.allstateEvent ev.event = false)
    (hin : lbPeerFsm.inEvent x.fi.state ev.event = true) :
    lbPeerDispatchWith L io allstate x.ptr ev w
      = (lbPeerAction L io x.ptr ev x.fi.state >>= fun _ => pure 0)
        (w.setNet (w.net.emit (.peerDispatch x.ptr x.fi.state ev.event))) := by
  have hpeer := h.lbPeer? hw hx
  have hget : (lbPeerFi x.ptr).get
      (w.setNet (w.net.emit (.peerDispatch x.ptr x.fi.state ev.event))) = some x.fi := by
    simp [lbPeerFi, hpeer]
  have ht : x.fi.terminating = false := by rw [hw.peerFi x hx]
  rw [lbPeerDispatchWith, Prog.bind_ok (derefPeer_ok hpeer), Prog.bind_ok (emit_apply _)]
  exact Fsm.dispatch_action hget ht hall hin

theorem lbPeerDispatchWith_refused (allstate : M Unit) (ev : LbPeerUp)
    (h : Shows w a) (hw : a.WF) (hx : x ∈ a.lbPeers)
    (hall : lbPeerFsm.allstateEvent ev.event = false)
    (hin : lbPeerFsm.inEvent x.fi.state ev.event = false) :
    lbPeerDispatchWith L io allstate x.ptr ev w
      = .ok (-1, w.setNet (w.net.emit (.peerDispatch x.ptr x.fi.state ev.event))) := by
  have hpeer := h.lbPeer? hw hx
  have hget : (lbPeerFi x.ptr).get
      (w.setNet (w.net.emit (.peerDispatch x.ptr x.fi.state ev.event))) = some x.fi := by
    simp [lbPeerFi, hpeer]
  have ht : x.fi.terminating = false := by rw [hw.peerFi x hx]
  rw [lbPeerDispatchWith, Prog.bind_ok (derefPeer_ok hpeer), Prog.bind_ok (emit_apply _)]
  exact Fsm.dispatch_refused hget ht hall hin

theorem connById_world : a.world.connById connId
    = (a.sessions.find? fun s => s.connId = connId).map Session.lbConn := by
  simp only [World.connById, Service.world, List.find?_map]
  rfl

/-- An N-CONNECT on an unused id, in every state of the calling peer. -/
theorem lbPeerDispatch_initial (connId : ConnId) (msg : RxMsgb) (h : a.WF) (hx : x ∈ a.lbPeers)
    (hc : ∀ s ∈ a.sessions, s.connId ≠ connId) :
    FollowsWith 0 (lbPeerDispatch L io x.ptr (.msgUpCoInitial (some ⟨connId, none, some msg⟩))
        a.world)
      ((a.emit (.peerDispatch x.ptr x.fi.state .msgUpCoInitial)).connectTo L io x connId
        (L.msg msg.l2)) := by
  let b := a.emit (.peerDispatch x.ptr x.fi.state .msgUpCoInitial)
  have hb : b.WF := h.emit _
  have hsh : Shows a.world a := Service.world_shows h
  have hin : lbPeerFsm.inEvent x.fi.state .msgUpCoInitial = true := by
    have hst := h.peerState x hx
    cases hs : x.fi.state with
    | discarding => exact absurd hs hst
    | _ => rfl
  let ev : LbPeerUp := .msgUpCoInitial (some ⟨connId, none, some msg⟩)
  have hact := lbPeerDispatchWith_action L io (lbPeerAllstateAction L io x.ptr ev) ev hsh h hx
    rfl hin
  rw [lbPeerDispatch, hact]
  refine Follows.pure ?_ 0
  show Follows (lbPeerAction L io x.ptr _ x.fi.state b.world) (b.connectTo L io x connId _)
  unfold Service.connectTo lbPeerAction
  cases hst : x.fi.state with
  | discarding => exact absurd hst (h.peerState x hx)
  | ready => exact lbPeerStReady_first L io hb ⟨x, hx, rfl, hst⟩ hc
  | waitRxReset =>
    have hnone : b.world.lbConns.find? (fun y => y.sccpConnId = connId) = none := by
      have hn : b.sessions.find? (fun s => s.connId = connId) = none :=
        List.find?_eq_none.mpr fun s hs => by simpa using hc s hs
      exact (connById_world (a := b)).trans (by rw [hn]; rfl)
    have hdisc : lbPeerDisconnect connId b.world = .ok ((), b.world) := by
      rw [lbPeerDisconnect, Prog.bind_ok (Prog.read_apply _ _), hnone]
      rfl
    obtain ⟨w', hr, hsh'⟩ := lbPeerReset_shows io (Service.world_shows hb) hb hx
      (hb.no_sessions hx (by simp [hst]))
    refine ⟨(), w', ?_, hsh'⟩
    dsimp only
    rw [lbPeerStWaitRxReset, Prog.bind_ok (Prog.check_some rfl)]
    exact (Prog.bind_ok hdisc).trans hr
  | waitRxResetAck =>
    let c := b.emit (.disconn connId)
    have hcw : c.WF := hb.emit _
    obtain ⟨w', hr, hsh'⟩ := lbPeerReset_shows io (Service.world_shows hcw) hcw hx
      (hcw.no_sessions hx (by simp [hst]))
    refine ⟨(), w', ?_, hsh'⟩
    dsimp only
    rw [lbPeerStWaitRxResetAck, Prog.bind_ok (Prog.check_some rfl)]
    exact (Prog.bind_ok (sccpLbDisconnect_apply _)).trans hr

/-- A message on a session, whose peer is READY. -/
theorem lbPeerDispatch_co (connId : ConnId) (msg : RxMsgb) {s : Session} (h : a.WF) (hs : s ∈ a.sessions) :
    ∃ w', lbPeerDispatch L io s.peer (.msgUpCo (some ⟨connId, some s.conn, some msg⟩)) a.world
        = .ok (0, w') ∧
      Shows w' ((a.emit (.peerDispatch s.peer .ready .msgUpCo)).rx L io s (L.msg msg.l2)) := by
  obtain ⟨x, hx, hxp, hst⟩ := h.peerReady s hs
  let b := a.emit (.peerDispatch s.peer .ready .msgUpCo)
  have hb : b.WF := h.emit _
  let ev : LbPeerUp := .msgUpCo (some ⟨connId, some s.conn, some msg⟩)
  have hact := lbPeerDispatchWith_action L io (lbPeerAllstateAction L io x.ptr ev) ev
    (Service.world_shows h) h hx rfl (by rw [hst]; rfl)
  obtain ⟨rc, w', hrx, hsh⟩ := lbConnRx_shows L io msg.l2 (Service.world_shows hb) hb hs
  refine ⟨w', ?_, hsh⟩
  rw [hxp, hst] at hact
  rw [lbPeerDispatch, hact]
  have hready : lbPeerAction L io s.peer (.msgUpCo (some ⟨connId, some s.conn, some msg⟩)) .ready
      b.world = .ok ((), w') := by
    show lbPeerStReady L io s.peer (.msgUpCo (some ⟨connId, some s.conn, some msg⟩)) b.world = _
    rw [lbPeerStReady, Prog.bind_ok (Prog.check_some rfl)]
    apply (Prog.bind_ok (Prog.check_some rfl)).trans
    apply (Prog.bind_ok (Prog.check_some rfl)).trans
    exact (Prog.bind_ok hrx).trans rfl
  exact (Prog.bind_ok hready).trans rfl

/-- A connectionless message, in every state of the calling peer. -/
theorem lbPeerDispatch_cl {ctx : LbPeerEvCtx RxMsgb} (h : a.WF) (hx : x ∈ a.lbPeers)
    (hctx : ctx.msg = some msg) :
    ∃ w', lbPeerDispatch L io x.ptr (.msgUpCl (some ctx)) a.world = .ok (0, w') ∧
      Shows w' (
        let b := a.emit (.peerDispatch x.ptr x.fi.state .msgUpCl)
        match L.bssmapLeMsgt msg.l2 with
        | .reset => (b.emit (.peerDispatch x.ptr x.fi.state .rxReset)).rxReset io x msg.name
        | .resetAck =>
            let b := b.emit (.peerDispatch x.ptr x.fi.state .rxResetAck)
            if x.fi.state = .waitRxResetAck then b.setPeer x.ptr .ready else b
        | .other _ => b) := by
  let b := a.emit (.peerDispatch x.ptr x.fi.state .msgUpCl)
  have hb : b.WF := h.emit _
  have hsb : Shows b.world b := Service.world_shows hb
  have hget : (lbPeerFi x.ptr).get b.world = some x.fi := by
    have hpeer := hsb.lbPeer? hb hx
    simp [lbPeerFi, hpeer]
  have ht : x.fi.terminating = false := by rw [h.peerFi x hx]
  have hpeer := (Service.world_shows h).lbPeer? h hx
  have hdisp : lbPeerDispatch L io x.ptr (.msgUpCl (some ctx)) a.world
      = (lbPeerAllstateAction L io x.ptr (.msgUpCl (some ctx)) >>= fun _ => pure 0) b.world := by
    rw [lbPeerDispatch, lbPeerDispatchWith, Prog.bind_ok (derefPeer_ok hpeer),
      Prog.bind_ok (emit_apply _)]
    exact Fsm.dispatch_allstate hget ht rfl
  have hall : lbPeerAllstateAction L io x.ptr (.msgUpCl (some ctx)) b.world
      = (match L.bssmapLeMsgt msg.l2 with
        | .reset => do
            let _ ← lbPeerDispatchWith L io (pure ()) x.ptr (.rxReset msg)
            return
        | .resetAck => do
            let _ ← lbPeerDispatchWith L io (pure ()) x.ptr (.rxResetAck msg)
            return
        | .other _ => return : M Unit) b.world := by
    rw [lbPeerAllstateAction, Prog.bind_ok (Prog.check_some rfl)]
    exact (Prog.bind_ok (Prog.check_some hctx)).trans rfl
  rw [hdisp]
  cases hm : L.bssmapLeMsgt msg.l2 with
  | other msgt =>
    rw [hm] at hall
    exact ⟨b.world, (Prog.bind_ok hall).trans rfl, hsb⟩
  | reset =>
    rw [hm] at hall
    let c := b.emit (.peerDispatch x.ptr x.fi.state .rxReset)
    have hc : c.WF := hb.emit _
    have hin : lbPeerFsm.inEvent x.fi.state .rxReset = true := by
      have hst := h.peerState x hx
      cases hs : x.fi.state with
      | discarding => exact absurd hs hst
      | _ => rfl
    obtain ⟨w', hr, hsh⟩ := lbPeerRxReset_shows io msg (Service.world_shows hc) hc hx
    have hact := lbPeerDispatchWith_action L io (pure ()) (.rxReset msg) hsb hb hx rfl hin
    have haction : lbPeerAction L io x.ptr (.rxReset msg) x.fi.state c.world = .ok ((), w') := by
      have hst := h.peerState x hx
      cases hs : x.fi.state with
      | discarding => exact absurd hs hst
      | _ => exact hr
    refine ⟨w', ?_, hsh⟩
    refine (Prog.bind_ok (a := ()) (hall.trans ?_)).trans rfl
    exact (Prog.bind_ok (hact.trans ((Prog.bind_ok haction).trans rfl))).trans rfl
  | resetAck =>
    rw [hm] at hall
    let c := b.emit (.peerDispatch x.ptr x.fi.state .rxResetAck)
    have hc : c.WF := hb.emit _
    by_cases hst : x.fi.state = .waitRxResetAck
    · have hact := lbPeerDispatchWith_action L io (pure ()) (.rxResetAck msg) hsb hb hx rfl
        (by rw [hst]; rfl)
      obtain ⟨w', hchg, hsh, -⟩ := lbPeerStateChg_shows (Service.world_shows hc) hc hx .ready
      have haction : lbPeerAction L io x.ptr (.rxResetAck msg) x.fi.state c.world
          = .ok ((), w') := by
        rw [hst]
        exact hchg
      refine ⟨w', ?_, ?_⟩
      · refine (Prog.bind_ok (a := ()) (hall.trans ?_)).trans rfl
        exact (Prog.bind_ok (hact.trans ((Prog.bind_ok haction).trans rfl))).trans rfl
      · show Shows w' (if x.fi.state = .waitRxResetAck then c.setPeer x.ptr .ready else c)
        rw [if_pos hst]
        exact hsh
    · have href := lbPeerDispatchWith_refused L io (pure ()) (.rxResetAck msg) hsb hb hx rfl (by
          have hst' := h.peerState x hx
          cases hs : x.fi.state with
          | discarding => exact absurd hs hst'
          | waitRxResetAck => exact absurd hs hst
          | _ => rfl)
      refine ⟨c.world, ?_, ?_⟩
      · refine (Prog.bind_ok (a := ()) (hall.trans ?_)).trans rfl
        exact (Prog.bind_ok href).trans rfl
      · show Shows c.world (if x.fi.state = .waitRxResetAck then c.setPeer x.ptr .ready else c)
        rw [if_neg hst]
        exact Service.world_shows hc

end Dispatch

section Primitives

variable {addr : SccpAddr}

theorem lbPeerFindOrCreate_peer :
    lbPeerFindOrCreate L addr a.world = .ok ((a.peer L addr).1.ptr, (a.peer L addr).2.world) := by
  rw [lbPeerFindOrCreate, Prog.bind_ok (Prog.read_apply _ _)]
  have hfind : a.world.lbPeerFind L addr
      = a.lbPeers.find? fun x => L.sccpAddrRiCmp addr x.peerAddr = 0 := rfl
  rw [hfind]
  unfold Service.peer
  cases a.lbPeers.find? fun x => L.sccpAddrRiCmp addr x.peerAddr = 0 with
  | some x => rfl
  | none => rfl

/-- An N-CONNECT on a listed id is refused, any other goes to its peer. -/
theorem lbPeerUpL2_connect (connId : ConnId) (msg : RxMsgb) (h : a.WF) :
    Follows ((do
        let rc ← lbPeerUpL2 L io (some addr) true connId msg
        Prog.ifTrue (rc ≠ 0) (osmoSccpTxDisconn connId)
        return rc : M Int) a.world)
      (a.connect L io connId addr (L.msg msg.l2)) := by
  have hread : (Prog.read fun w => w.connById connId : M _) a.world
      = .ok ((a.sessions.find? fun s => s.connId = connId).map Session.lbConn, a.world) := by
    rw [Prog.read_apply, connById_world]
  unfold Service.connect
  cases hfind : a.sessions.find? fun s => s.connId = connId with
  | some s =>
    have hid := List.find?_some hfind
    have hany : a.sessions.any (fun s => s.connId = connId) = true :=
      List.any_eq_true.mpr ⟨s, List.mem_of_find?_eq_some hfind, hid⟩
    rw [hfind] at hread
    have hup : lbPeerUpL2 L io (some addr) true connId msg a.world = .ok (-einval, a.world) := by
      rw [lbPeerUpL2]
      exact (Prog.bind_ok hread).trans rfl
    rw [if_pos hany, Prog.bind_ok hup]
    exact ⟨-einval, _, rfl, Service.world_shows (h.emit (.disconn connId))⟩
  | none =>
    have hc : ∀ s ∈ a.sessions, s.connId ≠ connId := by
      intro s hs
      simpa using List.find?_eq_none.mp hfind s hs
    have hany : ¬ a.sessions.any (fun s => s.connId = connId) = true := by
      rw [List.any_eq_true]
      rintro ⟨s, hs, heq⟩
      exact hc s hs (by simpa using heq)
    rw [hfind] at hread
    have hup : lbPeerUpL2 L io (some addr) true connId msg a.world
        = lbPeerDispatch L io (a.peer L addr).1.ptr (.msgUpCoInitial (some ⟨connId, none, some msg⟩))
          (a.peer L addr).2.world := by
      rw [lbPeerUpL2]
      apply (Prog.bind_ok hread).trans
      apply (Prog.bind_ok (lbPeerFindOrCreate_peer L)).trans
      rfl
    have hpeer : (a.peer L addr).2.WF := h.peer
    have hdisp := lbPeerDispatch_initial L io connId msg hpeer Service.peer_mem (by
      intro s hs
      rw [Service.peer_frame] at hs
      exact hc s hs)
    rw [← hup] at hdisp
    rw [if_neg hany]
    dsimp only
    cases hb : ((a.peer L addr).2.emit (.peerDispatch (a.peer L addr).1.ptr
      (a.peer L addr).1.fi.state .msgUpCoInitial)).connectTo L io (a.peer L addr).1 connId
      (L.msg msg.l2) with
    | ok a' =>
      rw [hb] at hdisp
      obtain ⟨w', hok, hsh⟩ := hdisp
      exact ⟨0, w', (Prog.bind_ok hok).trans rfl, hsh⟩
    | error e =>
      rw [hb] at hdisp
      exact Prog.bind_error hdisp

/-- Data on a listed id goes to its session, any other is refused. -/
theorem lbPeerUpL2_data (connId : ConnId) (msg : RxMsgb) (h : a.WF) :
    Follows (lbPeerUpL2 L io none true connId msg a.world)
      (.ok (a.data L io connId (L.msg msg.l2))) := by
  have hread : (Prog.read fun w => w.connById connId : M _) a.world
      = .ok ((a.sessions.find? fun s => s.connId = connId).map Session.lbConn, a.world) := by
    rw [Prog.read_apply, connById_world]
  unfold Service.data
  cases hfind : a.sessions.find? fun s => s.connId = connId with
  | some s =>
    rw [hfind] at hread
    obtain ⟨w', hd, hsh⟩ := lbPeerDispatch_co L io connId msg h
      (List.mem_of_find?_eq_some hfind)
    refine ⟨0, w', ?_, hsh⟩
    rw [lbPeerUpL2]
    exact (Prog.bind_ok hread).trans hd
  | none =>
    rw [hfind] at hread
    refine ⟨-einval, a.world, ?_, Service.world_shows h⟩
    rw [lbPeerUpL2]
    exact (Prog.bind_ok hread).trans rfl

theorem lbPeerUpL2_unitdata (msg : RxMsgb) (h : a.WF) :
    Follows (lbPeerUpL2 L io (some addr) false 0 msg a.world)
      (.ok (a.unitdata L io addr msg.l2 msg.name)) := by
  have hpeer : (a.peer L addr).2.WF := h.peer
  let ctx : LbPeerEvCtx RxMsgb := ⟨0, none, some msg⟩
  have hctx : ctx.msg = some msg := rfl
  obtain ⟨w', hd, hsh⟩ := lbPeerDispatch_cl L io hpeer Service.peer_mem hctx
  refine ⟨0, w', ?_, hsh⟩
  rw [lbPeerUpL2]
  exact (Prog.bind_ok (lbPeerFindOrCreate_peer L)).trans hd

theorem sccpLbSapUpPrim_follows (h : a.WF) (prim : ScuInd) (name : MsgbPtr) :
    Follows (sccpLbSapUpPrim L io ⟨name, prim.l2⟩ prim a.world) (a.rxPrim L io name prim) := by
  cases prim with
  | nConnect connId addr l2 =>
    by_cases hl : l2.length = 0
    · have ha : a.rxPrim L io name (.nConnect connId addr l2) = .ok a := if_pos hl
      rw [ha]
      refine ⟨-1, a.world, ?_, Service.world_shows h⟩
      rw [sccpLbSapUpPrim, if_pos hl]
      rfl
    · have ha : a.rxPrim L io name (.nConnect connId addr l2)
          = (a.emit (.connResp connId)).connect L io connId addr (L.msg l2) := if_neg hl
      rw [ha, sccpLbSapUpPrim, if_neg hl]
      exact lbPeerUpL2_connect L io connId ⟨name, l2⟩ (h.emit (.connResp connId))
  | nData connId l2 => exact lbPeerUpL2_data L io connId ⟨name, l2⟩ h
  | nDisconnect connId l2 =>
    rw [sccpLbSapUpPrim]
    by_cases hl : l2.length = 0
    · have ha : a.rxPrim L io name (.nDisconnect connId l2) = .ok (a.emit (.disconn connId)) := by
        simp [Service.rxPrim, hl]
      rw [ha, if_neg (by simpa using hl)]
      exact ⟨0, _, rfl, Service.world_shows (h.emit (.disconn connId))⟩
    · have ha : a.rxPrim L io name (.nDisconnect connId l2)
          = .ok ((a.data L io connId (L.msg l2)).emit (.disconn connId)) := by
        simp [Service.rxPrim, hl]
      obtain ⟨rc, w', hd, hsh⟩ := lbPeerUpL2_data L io connId ⟨name, l2⟩ h
      rw [ha, if_pos hl]
      refine ⟨rc, w'.setNet (w'.net.emit (.disconn connId)), ?_, ?_⟩
      · exact (Prog.bind_ok hd).trans rfl
      · have hnet := hsh.net
        have hsh' := hsh.setNet (w'.net.emit (.disconn connId))
        rw [hnet] at hsh'
        rw [hnet]
        exact hsh'
  | nUnitdata addr l2 => exact lbPeerUpL2_unitdata L io ⟨name, l2⟩ h
  | unsupported l2 => exact ⟨-1, a.world, rfl, Service.world_shows h⟩

theorem sccpLbSapUp_follows (h : a.WF) (prim : ScuInd) :
    Follows (handle L io (.scu prim) a.world) (a.handle L io (.scu prim)) := by
  let b := a.setNet a.net.takeMsgb
  have hprim := sccpLbSapUpPrim_follows L io (h.setNet a.net.takeMsgb) prim a.net.nextMsgb
  have hup : sccpLbSapUp L io prim a.world = (do
      let rc ← sccpLbSapUpPrim L io ⟨a.net.nextMsgb, prim.l2⟩ prim
      msgbFree a.net.nextMsgb
      return rc : M Int) b.world := by
    rw [sccpLbSapUp]
    exact Prog.bind_ok (onNet_apply _)
  have hh : handle L io (.scu prim) a.world = (sccpLbSapUp L io prim >>= fun _ => pure ()) a.world :=
    rfl
  rw [hh, Prog.bind_apply, hup]
  cases hb : b.rxPrim L io a.net.nextMsgb prim with
  | error e =>
    rw [hb] at hprim
    have ha : a.handle L io (.scu prim) = .error e := by simp [Service.handle, b, hb]
    have herr : (do
        let rc ← sccpLbSapUpPrim L io ⟨a.net.nextMsgb, prim.l2⟩ prim
        msgbFree a.net.nextMsgb
        return rc : M Int) b.world = .error e := Prog.bind_error hprim
    rw [ha, herr]
    rfl
  | ok a' =>
    rw [hb] at hprim
    obtain ⟨rc, w', hok, hsh⟩ := hprim
    have ha : a.handle L io (.scu prim) = .ok (a'.emit (.msgbFree a.net.nextMsgb)) := by
      simp [Service.handle, b, hb]
    have hfree : (do
        let rc ← sccpLbSapUpPrim L io ⟨a.net.nextMsgb, prim.l2⟩ prim
        msgbFree a.net.nextMsgb
        return rc : M Int) b.world
        = .ok (rc, w'.setNet (w'.net.emit (.msgbFree a.net.nextMsgb))) :=
      (Prog.bind_ok hok).trans rfl
    rw [ha, hfree]
    refine ⟨(), _, rfl, ?_⟩
    rw [hsh.net]
    exact hsh.setNet _

end Primitives

section Timers

theorem locReqTimer_follows (h : a.WF) (r : ReqPtr) :
    Follows (handle L io (.locReqTimer r) a.world) (.ok (a.locReqTimeout L io r)) := by
  have hget : (smlcLocReqFi r).get a.world
      = (a.sessions.find? fun s => s.req = r).map fun s => s.locReq.fi := by
    simp only [smlcLocReqFi, World.locReq?, Service.world, KeyedList.lookup, List.find?_map,
      Option.map_map]
    rfl
  rw [handle, Prog.bind_ok (Prog.read_apply _ _), timerRunning, hget]
  unfold Service.locReqTimeout
  cases hfind : a.sessions.find? fun s => s.req = r with
  | none => exact ⟨(), a.world, rfl, Service.world_shows h⟩
  | some s =>
    have hr : s.req = r := by simpa using List.find?_some hfind
    obtain ⟨w', ht, hsh⟩ := smlcLocReqTimeout_shows L io (Service.world_shows h) h
      (List.mem_of_find?_eq_some hfind)
    rw [hr] at ht
    exact ⟨(), w', ht, hsh⟩

/-- The RESET procedure of a peer timed out. -/
theorem lbPeerTimeout_world (h : a.WF) (hx : x ∈ a.lbPeers) :
    lbPeerTimeout x.ptr a.world = .ok ((), (a.setPeer x.ptr .waitRxReset).world) := by
  have hpeer := (Service.world_shows h).lbPeer? h hx
  have hget : (lbPeerFi x.ptr).get a.world = some x.fi := by simp [lbPeerFi, hpeer]
  let fi : FsmInst LbPeerState := { x.fi with timer := false }
  let w1 := a.world.updPeer x.ptr fun y => { y with fi := fi }
  have hget1 : (lbPeerFi x.ptr).get w1 = some fi := by simp [lbPeerFi, w1, hpeer]
  have ht : x.fi.terminating = false := by rw [h.peerFi x hx]
  have hm : lbPeerFsm.outState x.fi.state .waitRxReset = true := by
    have hst := h.peerState x hx
    cases hc : x.fi.state with
    | discarding => exact absurd hc hst
    | _ => rfl
  have hupd : KeyedList.update LbPeer.ptr (KeyedList.update LbPeer.ptr a.lbPeers x.ptr
        fun y => { y with fi := fi }) x.ptr
        (fun y => { y with fi := ⟨.waitRxReset, x.fi.terminating, false⟩ })
      = (a.setPeer x.ptr .waitRxReset).lbPeers := by
    rw [ht, KeyedList.update_update]
    · rfl
    · exact fun _ => rfl
  have hcb : lbPeerFsmTimerCb x.ptr w1 = .ok (0, (a.setPeer x.ptr .waitRxReset).world) := by
    have hchg : lbPeerStateChg x.ptr .waitRxReset w1
        = .ok ((), (a.setPeer x.ptr .waitRxReset).world) := by
      rw [lbPeerStateChg, Prog.bind_apply, Fsm.stateChg_permitted hget1 ht hm]
      exact congrArg (fun l => Except.ok ((), { a.world with lbPeers := l })) hupd
    exact (Prog.bind_ok hchg).trans rfl
  rw [lbPeerTimeout, Fsm.tmrCb, Prog.bind_ok (Prog.deref_some hget),
    Prog.bind_ok (Prog.modify_apply _ _)]
  exact (Prog.bind_ok hcb).trans rfl

theorem lbPeerTimer_follows (h : a.WF) (p : PeerPtr) :
    Follows (handle L io (.lbPeerTimer p) a.world) (.ok (a.lbPeerTimeout p)) := by
  have hget : (lbPeerFi p).get a.world
      = (KeyedList.lookup LbPeer.ptr a.lbPeers p).map LbPeer.fi := rfl
  rw [handle, Prog.bind_ok (Prog.read_apply _ _), timerRunning, hget]
  unfold Service.lbPeerTimeout
  cases hfind : KeyedList.lookup LbPeer.ptr a.lbPeers p with
  | none => exact ⟨(), a.world, rfl, Service.world_shows h⟩
  | some x =>
    obtain ⟨hx, rfl⟩ := KeyedList.lookup_some_mem hfind
    cases ht : x.fi.timer with
    | false => exact ⟨(), a.world, by simp [ht], by simpa [ht] using Service.world_shows h⟩
    | true =>
      have hw : (a.lbPeerTimeout x.ptr).WF := h.lbPeerTimeout x.ptr
      have heq : a.lbPeerTimeout x.ptr = a.setPeer x.ptr .waitRxReset := by
        simp [Service.lbPeerTimeout, hfind, ht]
      rw [heq] at hw
      refine ⟨(), _, (by simpa [ht] using lbPeerTimeout_world h hx), ?_⟩
      simpa [ht] using Service.world_shows hw

end Timers

/-- Every event does to the objects what it does to the service. -/
theorem handle_follows (h : a.WF) (ev : Event) :
    Follows (handle L io ev a.world) (a.handle L io ev) := by
  cases ev with
  | scu prim => exact sccpLbSapUp_follows L io h prim
  | locReqTimer r => exact locReqTimer_follows L io h r
  | lbPeerTimer p => exact lbPeerTimer_follows L io h p
  | vty cmd =>
    have hsh := Service.world_shows (h.setCells (vtyCommand L a.cellLocations cmd).2)
    exact ⟨(), _, rfl, hsh⟩

/-- The simulation, for one step. -/
theorem step_world (h : a.WF) (i : Input) :
    step L a.world i = (a.step L i).map Service.world := by
  have hf := handle_follows L i.io h i.ev
  unfold step Service.step
  cases hb : a.handle L i.io i.ev with
  | error e =>
    rw [hb] at hf
    have hf' : handle L i.io i.ev a.world = .error e := hf
    rw [hf']
    rfl
  | ok a' =>
    rw [hb] at hf
    obtain ⟨v, w', hok, hsh⟩ := hf
    rw [hok]
    exact congrArg Except.ok hsh.select

/-- The simulation, for a run. -/
theorem run_world (h : a.WF) (is : List Input) :
    run (step L) a.world is = (run (Service.step L) a is).map Service.world := by
  induction is generalizing a with
  | nil => rfl
  | cons i is ih =>
    simp only [run]
    rw [step_world L h i]
    cases hs : a.step L i with
    | error e => rfl
    | ok a' => exact ih (Service.step_wf h hs)

theorem Service.run_wf {is : List Input} {a' : Service} (h : a.WF)
    (hr : run (Service.step L) a is = .ok a') : a'.WF :=
  run_invariant (fun _ _ _ h hs => step_wf h hs) h hr

theorem run_world_ok {is : List Input} {w' : World} (h : a.WF)
    (hr : run (step L) a.world is = .ok w') :
    ∃ a', run (Service.step L) a is = .ok a' ∧ a'.WF ∧ w' = a'.world := by
  rw [run_world L h] at hr
  cases ha : run (Service.step L) a is with
  | error e =>
    rw [ha] at hr
    cases hr
  | ok a' =>
    rw [ha] at hr
    cases hr
    exact ⟨a', rfl, Service.run_wf L h ha, rfl⟩

/-- Every run of the process is a run of the service. -/
theorem run_init_world {scu : Bool} {is : List Input} {w' : World} :
    run (step L) (World.init scu) is = .ok w' ↔
      ∃ a, run (Service.step L) (Service.init scu) is = .ok a ∧ a.WF ∧ w' = a.world := by
  have hinit : World.init scu = (Service.init scu).world := rfl
  rw [hinit, run_world L (Service.init_wf scu)]
  cases hr : run (Service.step L) (Service.init scu) is with
  | error e => simp [Except.map]
  | ok a =>
    have hwf := Service.run_wf L (Service.init_wf scu) hr
    constructor
    · intro h
      cases h
      exact ⟨a, rfl, hwf, rfl⟩
    · rintro ⟨b, hb, -, rfl⟩
      cases hb
      rfl

/-- Every reachable state holds the objects of a reachable service. -/
theorem ReachableWorld.service (h : ReachableWorld L w) :
    ∃ scu a, Reachable (Service.step L) (Service.init scu) a ∧ a.WF ∧ w = a.world := by
  obtain ⟨scu, is, hr⟩ := h
  obtain ⟨a, ha, hwf, rfl⟩ := (run_init_world L).mp hr
  exact ⟨scu, a, ⟨is, ha⟩, hwf, rfl⟩

end OsmoSmlc
