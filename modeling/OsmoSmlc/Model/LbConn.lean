import OsmoSmlc.Model.SmlcSubscr

/-! The connections of `lb_conn.c` and the end of their location requests. Closing a
connection terminates its request, whose cleanup returns a token of the connection,
whose callback closes the connection when no token is left: the functions take the
closing function as a parameter, and `lbConnClose` ties the knot. -/
namespace OsmoSmlc
open Osmo

variable (io : Io)

section Teardown

variable (close : ConnPtr → M Unit)

/-- `lb_conn_use_cb`; `use` is the token of the entry that was just changed. -/
def lbConnUseCb (c : ConnPtr) (use : Use) : M Int := do
  let lbConn ← derefConn c
  let total := lbConn.useCount.total
  if lbConn.useCount.count use < 0 then return -erange
  else if total = 0 then
    close c
    return 0
  else return 0

/-- `osmo_use_count_get_put` on the use count of a connection. -/
def lbConnGetPut (c : ConnPtr) (use : Use) (change : Int) : M Int := do
  setConn c fun x => { x with useCount := x.useCount.change use change }
  lbConnUseCb close c use

def lbConnGet (c : ConnPtr) (use : Use) : M Unit := do
  let rc ← lbConnGetPut close c use 1
  Prog.assert (.osmoAssert .lbConnGet) (rc == 0)

def lbConnPut (c : ConnPtr) (use : Use) : M Unit := do
  let rc ← lbConnGetPut close c use (-1)
  Prog.assert (.osmoAssert .lbConnPut) (rc == 0)

def smlcLocReqFsmCleanup (r : ReqPtr) : M Unit := do
  emit (.locReqCleanup r)
  let smlcLocReq ← derefReq r
  match smlcLocReq.lbConn with
  | none => return
  | some c =>
      let lbConn ← derefConn c
      if lbConn.smlcLocReq = some r then
        setConn c fun x => { x with smlcLocReq := none }
        lbConnPut close c .smlcLocReq
      else return

/-- `osmo_fsm_inst_term` of a location request. -/
def smlcLocReqTerm (r : ReqPtr) : M Unit :=
  Fsm.term .useAfterFree (smlcLocReqFi r) (smlcLocReqFsmCleanup close r)

/-- The body of `lb_conn_close`, which calls itself through the use count. -/
def lbConnCloseBody (c : ConnPtr) : M Unit := do
  let lbConn ← derefConn c
  if lbConn.closing then return
  else
    setConn c fun x => { x with closing := true }
    Prog.ifSome lbConn.lbPeer fun _ => do
      sccpLbDisconnect lbConn.sccpConnId
      setConn c fun x => { x with lbPeer := none }
    Prog.ifSome lbConn.smlcLocReq fun r => smlcLocReqTerm close r
    let lbConn ← derefConn c
    Prog.ifSome lbConn.smlcSubscr fun s => onSubscrs (smlcSubscrPut s .lbConn)
    emit (.connFree c)
    Prog.modify fun w => w.delConn c

end Teardown

/-- `lb_conn_close` with a bound on the depth of the calls through the use count. -/
def lbConnCloseFuel : Nat → ConnPtr → M Unit
  | 0, _ => Prog.crash .outOfFuel
  | n + 1, c => lbConnCloseBody (lbConnCloseFuel n) c

/-- Regularly close the connection. The inner call finds the connection closing. -/
def lbConnClose (c : ConnPtr) : M Unit := lbConnCloseFuel 2 c

/-- Same as `lb_conn_close`, but without sending any SCCP messages. -/
def lbConnDiscard (c : ConnPtr) : M Unit := do
  setConn c fun x => { x with lbPeer := none }
  lbConnClose c

/-- `llist_add` at the head, and the first token. -/
def lbConnAlloc (lbPeer : PeerPtr) (sccpConnId : ConnId) (use : Use) : M ConnPtr := do
  let c ← Prog.read fun w => w.next.conn
  Prog.modify fun w => w.addConn ⟨c, [], some lbPeer, sccpConnId, false, none, none⟩
  lbConnGet lbConnClose c use
  return c

def lbConnCreateIncoming (lbPeer : PeerPtr) (sccpConnId : ConnId) (use : Use) : M ConnPtr :=
  lbConnAlloc lbPeer sccpConnId use

/-- The list walk compares pointers, and `none` is the null pointer. -/
def lbConnFindBySmlcSubscr (smlcSubscr : Option SubscrPtr) (use : Use) : M (Option ConnPtr) := do
  match ← Prog.read (fun w => w.lbConns.find? fun x => x.smlcSubscr = smlcSubscr) with
  | some lbConn =>
      lbConnGet lbConnClose lbConn.ptr use
      return some lbConn.ptr
  | none => return none

/-- `struct lb_peer_ev_ctx`, for a received or for an encoded message. -/
structure LbPeerEvCtx (μ : Type) where
  connId : ConnId
  lbConn : Option ConnPtr
  msg : Option μ

structure TxMsgb where
  name : MsgbPtr
  pdu : BssapLePdu

/-- The events on a peer that carry a message down to SCCP. -/
inductive LbPeerDown where
  | msgDownCl (msg : Option TxMsgb)
  | msgDownCoInitial (ctx : Option (LbPeerEvCtx TxMsgb))
  | msgDownCo (ctx : Option (LbPeerEvCtx TxMsgb))

def LbPeerDown.event : LbPeerDown → LbPeerEvent
  | .msgDownCl _ => .msgDownCl
  | .msgDownCoInitial _ => .msgDownCoInitial
  | .msgDownCo _ => .msgDownCo

/-- The cases of `lb_peer_st_ready` that send; the result of the send is not looked at. -/
def lbPeerStReadyDown (p : PeerPtr) : LbPeerDown → M Unit
  | .msgDownCoInitial ctx => do
      let ctx ← Prog.deref (.osmoAssert .lbPeerStReady) fun _ => ctx
      let msg ← Prog.deref (.osmoAssert .lbPeerStReady) fun _ => ctx.msg
      let lbp ← derefPeer p
      let _ ← sccpLbDownL2CoInitial io lbp.peerAddr ctx.connId msg.name msg.pdu
      return
  | .msgDownCo ctx => do
      let ctx ← Prog.deref (.osmoAssert .lbPeerStReady) fun _ => ctx
      let msg ← Prog.deref (.osmoAssert .lbPeerStReady) fun _ => ctx.msg
      Prog.ifSome ctx.lbConn fun c => do
        let lbConn ← derefConn c
        emit (.msgDownCo c lbConn.smlcLocReq msg.pdu)
      let _ ← sccpLbDownL2Co io ctx.connId msg.name msg.pdu
      return
  | .msgDownCl msg => do
      let msg ← Prog.deref (.osmoAssert .lbPeerStReady) fun _ => msg
      let lbp ← derefPeer p
      let _ ← sccpLbDownL2Cl io lbp.peerAddr msg.name msg.pdu
      return

/-- `osmo_fsm_inst_dispatch` of a sending event: only READY lets it through its mask. -/
def lbPeerDispatchDown (p : PeerPtr) (ev : LbPeerDown) : M Int := do
  let lbp ← derefPeer p
  emit (.peerDispatch p lbp.fi.state ev.event)
  lbPeerFsm.dispatch .useAfterFree (lbPeerFi p) ev.event (pure ())
    fun st =>
      match st with
      | .ready => lbPeerStReadyDown io p ev
      | _ => pure ()

def lbConnDownL2Co (c : ConnPtr) (l3 : TxMsgb) (initial : Bool) : M Int := do
  let lbConn ← derefConn c
  let co : LbPeerEvCtx TxMsgb := ⟨lbConn.sccpConnId, some c, some l3⟩
  match lbConn.lbPeer with
  | none => return -eio
  | some p =>
      if initial then lbPeerDispatchDown io p (.msgDownCoInitial (some co))
      else lbPeerDispatchDown io p (.msgDownCo (some co))

def lbConnSendBssmapLe (c : ConnPtr) (bssmapLe : BssmapLePdu) : M Int := do
  let bssapLe : BssapLePdu := .bssmapLe bssmapLe
  match ← onNet (fun n => n.bssapLeEnc io bssapLe) with
  | none => return -einval
  | some msg =>
      let rc ← lbConnDownL2Co io c ⟨msg, bssapLe⟩ false
      msgbFree msg
      return rc

end OsmoSmlc
