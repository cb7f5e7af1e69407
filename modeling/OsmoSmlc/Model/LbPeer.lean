import OsmoSmlc.Model.SmlcLocReq

/-! The peers of `lb_peer.c`: the RESET procedure and the way of a received message
through the peer's state machine to its connection. -/
namespace OsmoSmlc
open Osmo

variable (L : Libosmo) (io : Io)

structure RxMsgb where
  name : MsgbPtr
  l2 : List UInt8

/-- A new instance starts in the first state, WAIT_RX_RESET, without a timeout. -/
def lbPeerAlloc (peerAddr : SccpAddr) : M PeerPtr := do
  let p ← Prog.read fun w => w.next.peer
  Prog.modify fun w => w.addPeer ⟨p, ⟨.waitRxReset, false, false⟩, peerAddr⟩
  return p

/-- The list walk of `lb_peer_find`. -/
def World.lbPeerFind (w : World) (peerAddr : SccpAddr) : Option LbPeer :=
  w.lbPeers.find? fun p => L.sccpAddrRiCmp peerAddr p.peerAddr = 0

def lbPeerFindOrCreate (peerAddr : SccpAddr) : M PeerPtr := do
  match ← Prog.read (fun w => w.lbPeerFind L peerAddr) with
  | some lbp => return lbp.ptr
  | none => lbPeerAlloc peerAddr

/-- The states of `lb_peer_fsm` have no onenter function. -/
def lbPeerStateChg (p : PeerPtr) (new : LbPeerState) : M Unit := do
  let _ ← lbPeerFsm.stateChg .useAfterFree (lbPeerFi p) new (pure ())
  return

/-- The loop of `lb_peer_discard_all_conns` over the connections that were listed when
it started; each is followed only when its turn comes. -/
def lbPeerDiscardConns (p : PeerPtr) : List ConnPtr → M Unit
  | [] => pure ()
  | c :: cs => do
      let lbConn ← derefConn c
      Prog.ifTrue (lbConn.lbPeer = some p) do
        emit (.resetDiscard p lbConn.smlcLocReq)
        lbConnDiscard c
      lbPeerDiscardConns p cs

def lbPeerDiscardAllConns (p : PeerPtr) : M Unit := do
  let lbConns ← Prog.read fun w => w.lbConns.map LbConn.ptr
  lbPeerDiscardConns p lbConns

/-- Drop all SCCP connections of the peer, respond with RESET ACKNOWLEDGE and move to READY. -/
def lbPeerRxReset (p : PeerPtr) (msg : RxMsgb) : M Unit := do
  lbPeerDiscardAllConns p
  match ← onNet (fun n => n.bssapLeEnc io (.bssmapLe .resetAck)) with
  | none => lbPeerStateChg p .waitRxReset
  | some resp =>
      let lbp ← derefPeer p
      let rc ← sccpLbDownL2Cl io lbp.peerAddr resp (.bssmapLe .resetAck)
      if rc ≠ 0 then
        lbPeerStateChg p .waitRxReset
        msgbFree msg.name
      else
        msgbFree resp
        lbPeerStateChg p .ready

def lbPeerRxResetAck (p : PeerPtr) : M Unit := lbPeerStateChg p .ready

def lbPeerReset (p : PeerPtr) : M Unit := do
  lbPeerStateChg p .waitRxResetAck
  lbPeerDiscardAllConns p
  match ← onNet (fun n => n.bssapLeEnc io (.bssmapLe .reset)) with
  | none => lbPeerStateChg p .waitRxReset
  | some msg =>
      let lbp ← derefPeer p
      let rc ← sccpLbDownL2Cl io lbp.peerAddr msg (.bssmapLe .reset)
      msgbFree msg
      Prog.ifTrue (rc ≠ 0) (lbPeerStateChg p .waitRxReset)

def lbPeerDisconnect (connId : ConnId) : M Unit := do
  match ← Prog.read (fun w => w.lbConns.find? fun x => x.sccpConnId = connId) with
  | some lbConn => lbConnDiscard lbConn.ptr
  | none => return

/-- The events on a peer that carry a message up from SCCP. -/
inductive LbPeerUp where
  | msgUpCl (ctx : Option (LbPeerEvCtx RxMsgb))
  | msgUpCoInitial (ctx : Option (LbPeerEvCtx RxMsgb))
  | msgUpCo (ctx : Option (LbPeerEvCtx RxMsgb))
  | rxReset (msg : RxMsgb)
  | rxResetAck (msg : RxMsgb)

def LbPeerUp.event : LbPeerUp → LbPeerEvent
  | .msgUpCl _ => .msgUpCl
  | .msgUpCoInitial _ => .msgUpCoInitial
  | .msgUpCo _ => .msgUpCo
  | .rxReset _ => .rxReset
  | .rxResetAck _ => .rxResetAck

def lbPeerStWaitRxReset (p : PeerPtr) : LbPeerUp → M Unit
  | .msgUpCo ctx | .msgUpCoInitial ctx => do
      let ctx ← Prog.deref (.osmoAssert .lbPeerStWaitRxReset) fun _ => ctx
      lbPeerDisconnect ctx.connId
      lbPeerReset io p
  | .rxReset msg => lbPeerRxReset io p msg
  | _ => pure ()

def lbPeerStWaitRxResetAck (p : PeerPtr) : LbPeerUp → M Unit
  | .rxResetAck _ => lbPeerRxResetAck p
  | .msgUpCo ctx | .msgUpCoInitial ctx => do
      let ctx ← Prog.deref (.osmoAssert .lbPeerStWaitRxResetAck) fun _ => ctx
      sccpLbDisconnect ctx.connId
      lbPeerReset io p
  | .rxReset msg => lbPeerRxReset io p msg
  | _ => pure ()

/-- The cases of `lb_peer_st_ready` that receive; the others are `lbPeerStReadyDown`. -/
def lbPeerStReady (p : PeerPtr) : LbPeerUp → M Unit
  | .msgUpCoInitial ctx => do
      let ctx ← Prog.deref (.osmoAssert .lbPeerStReady) fun _ => ctx
      Prog.assert (.osmoAssert .lbPeerStReady) ctx.lbConn.isNone
      let msg ← Prog.deref (.osmoAssert .lbPeerStReady) fun _ => ctx.msg
      let lbConn ← lbConnCreateIncoming p ctx.connId .lbPeerStReady
      let _ ← lbConnRx L io lbConn msg.l2
      lbConnPut lbConnClose lbConn .lbPeerStReady
  | .msgUpCo ctx => do
      let ctx ← Prog.deref (.osmoAssert .lbPeerStReady) fun _ => ctx
      let lbConn ← Prog.deref (.osmoAssert .lbPeerStReady) fun _ => ctx.lbConn
      let msg ← Prog.deref (.osmoAssert .lbPeerStReady) fun _ => ctx.msg
      let _ ← lbConnRx L io lbConn msg.l2
      return
  | .rxReset msg => lbPeerRxReset io p msg
  | _ => pure ()

def lbPeerAction (p : PeerPtr) (ev : LbPeerUp) : LbPeerState → M Unit
  | .waitRxReset => lbPeerStWaitRxReset io p ev
  | .waitRxResetAck => lbPeerStWaitRxResetAck io p ev
  | .ready => lbPeerStReady L io p ev
  | .discarding => pure ()

/-- `osmo_fsm_inst_dispatch` of a receiving event, given what the event does in all states. -/
def lbPeerDispatchWith (allstate : M Unit) (p : PeerPtr) (ev : LbPeerUp) : M Int := do
  let lbp ← derefPeer p
  emit (.peerDispatch p lbp.fi.state ev.event)
  lbPeerFsm.dispatch .useAfterFree (lbPeerFi p) ev.event allstate (lbPeerAction L io p ev)

/-- The events dispatched from here are not handled alike in all states. -/
def lbPeerAllstateAction (p : PeerPtr) : LbPeerUp → M Unit
  | .msgUpCl ctx => do
      let ctx ← Prog.deref (.nullDeref .lbPeerAllstateAction) fun _ => ctx
      let msg ← Prog.deref (.nullDeref .lbPeerAllstateAction) fun _ => ctx.msg
      match L.bssmapLeMsgt msg.l2 with
      | .reset =>
          let _ ← lbPeerDispatchWith L io (pure ()) p (.rxReset msg)
          return
      | .resetAck =>
          let _ ← lbPeerDispatchWith L io (pure ()) p (.rxResetAck msg)
          return
      | .other _ => return
  | _ => pure ()

def lbPeerDispatch (p : PeerPtr) (ev : LbPeerUp) : M Int :=
  lbPeerDispatchWith L io (lbPeerAllstateAction L io p ev) p ev

def lbPeerFsmTimerCb (p : PeerPtr) : M Int := do
  lbPeerStateChg p .waitRxReset
  return 0

/-- The timeout of WAIT_RX_RESET_ACK expires; `lb_peer_fsm_timer_cb` never asks for a
termination of the peer. -/
def lbPeerTimeout (p : PeerPtr) : M Unit :=
  Fsm.tmrCb .useAfterFree (lbPeerFi p) (lbPeerFsmTimerCb p) (pure ())

/-- The cause of the termination is not looked at. -/
def lbPeerFsmCleanup (p : PeerPtr) : M Unit := do
  lbPeerDiscardAllConns p
  Prog.modify fun w => w.delPeer p

/-- `osmo_fsm_inst_term` on a peer, which is freed with its instance. -/
def lbPeerTerm (p : PeerPtr) : M Unit :=
  Fsm.term .useAfterFree (lbPeerFi p) (lbPeerFsmCleanup p)

/-- The walk over the connections in `lb_peer_up_l2`. -/
def World.connById (w : World) (connId : ConnId) : Option LbConn :=
  w.lbConns.find? fun x => x.sccpConnId = connId

def lbPeerUpL2 (callingAddr : Option SccpAddr) (co : Bool) (connId : ConnId) (l2 : RxMsgb) :
    M Int := do
  let lbConn ← if co then Prog.read fun w => w.connById connId else pure none
  let lbPeer := lbConn.bind LbConn.lbPeer
  if co ∧ lbPeer.isSome ∧ callingAddr.isSome then return -einval
  else if co ∧ lbPeer.isNone ∧ callingAddr.isNone then return -einval
  else
    let lbPeer ← match callingAddr with
      | some addr => do
          let p ← lbPeerFindOrCreate L addr
          pure (some p)
      | none => pure lbPeer
    let p ← Prog.deref (.osmoAssert .lbPeerUpL2) fun _ => lbPeer
    let ctx : LbPeerEvCtx RxMsgb := ⟨connId, lbConn.map LbConn.ptr, some l2⟩
    if co then
      if callingAddr.isSome then lbPeerDispatch L io p (.msgUpCoInitial (some ctx))
      else lbPeerDispatch L io p (.msgUpCo (some ctx))
    else lbPeerDispatch L io p (.msgUpCl (some ctx))

end OsmoSmlc
