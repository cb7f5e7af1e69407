import OsmoSmlc.Model.CellLocations
import OsmoSmlc.Model.LbConn

/-! The location requests of `smlc_loc_req.c`. The onenter functions of the states
WAIT_TA, GOT_TA and FAILED change the state further or end the request, so each is
defined after the states it can lead to. -/
namespace OsmoSmlc
open Osmo

variable (L : Libosmo) (io : Io)

/-- `osmo_fsm_inst_state_chg`, whose result none of the callers looks at. -/
def smlcLocReqFsmStateChg (r : ReqPtr) (new : LocReqState) (onenter : M Unit) : M Unit := do
  let _ ← smlcLocReqFsm.stateChg .useAfterFree (smlcLocReqFi r) new onenter
  return

/-- `lb_conn_send_bssmap_le` on the connection of a request. -/
def smlcLocReqSend (smlcLocReq : SmlcLocReq) (bssmapLe : BssmapLePdu) : M Int := do
  let c ← Prog.deref (.nullDeref .lbConnSendBssmapLe) fun _ => smlcLocReq.lbConn
  lbConnSendBssmapLe io c bssmapLe

def smlcLocReqFailedOnenter (r : ReqPtr) : M Unit := do
  let smlcLocReq ← derefReq r
  let _ ← smlcLocReqSend io smlcLocReq (.performLocResp ⟨none, smlcLocReq.lcsCause⟩)
  smlcLocReqTerm lbConnClose r

/-- The macro `smlc_loc_req_fail`. -/
def smlcLocReqFail (r : ReqPtr) (cause : LcsCause) : M Unit := do
  setReq r fun x => { x with lcsCause := some cause }
  smlcLocReqFsmStateChg r .failed (smlcLocReqFailedOnenter io r)

def smlcLocReqGotTaOnenter (r : ReqPtr) : M Unit := do
  let smlcLocReq ← derefReq r
  if !smlcLocReq.taPresent then smlcLocReqFail io r .systemFailure
  else
    let cells ← Prog.read World.cellLocations
    match cellLocationFromTa L cells smlcLocReq.latestCellId smlcLocReq.ta with
    | none => smlcLocReqFail io r .facilityNotsupp
    | some location =>
        let (rc, locationEstimate) := L.gadEnc location
        if rc ≤ 0 then smlcLocReqFail io r .facilityNotsupp
        else
          let rc ← smlcLocReqSend io smlcLocReq (.performLocResp ⟨some locationEstimate, none⟩)
          if rc ≠ 0 then smlcLocReqFail io r .systemFailure
          else smlcLocReqTerm lbConnClose r

def smlcLocReqWaitTaOnenter (r : ReqPtr) : M Unit := do
  let smlcLocReq ← derefReq r
  match smlcLocReq.req.apdu with
  | some (.taLayer3 ta) =>
      setReq r fun x => { x with taPresent := true, ta := ta }
      smlcLocReqFsmStateChg r .gotTa (smlcLocReqGotTaOnenter L io r)
  | _ =>
      let _ ← smlcLocReqSend io smlcLocReq (.connOrientedInfo .taRequest)
      return

/-- Only the CI part changes: the other components pass through an empty CGI. -/
def updateCi (cellId : CellId) (newCi : Int16) : CellId :=
  let cgi := L.cellIdToCgi default cellId
  let cgi := L.cellIdToCgi cgi (.ci newCi.toUInt16)
  L.cellIdFromCgi cellId.discr cgi

/-- The events of `smlc_loc_req_fsm` with their data. -/
inductive LocReqMsg where
  | rxTaResponse (cellId : UInt16) (ta : UInt8)
  | rxBsslapReset (cellId : UInt16) (ta : UInt8)
  | rxLePerformLocationAbort
  | other (event : UInt32)

def LocReqMsg.event : LocReqMsg → LocReqEvent
  | .rxTaResponse _ _ => .rxTaResponse
  | .rxBsslapReset _ _ => .rxBsslapReset
  | .rxLePerformLocationAbort => .rxLePerformLocationAbort
  | .other event => .other event

def smlcLocReqWaitTaAction (r : ReqPtr) : LocReqMsg → M Unit
  | .rxTaResponse cellId ta => do
      setReq r fun x => { x with
        taPresent := true, ta := ta, latestCellId := updateCi L x.latestCellId cellId.toInt16 }
      smlcLocReqFsmStateChg r .gotTa (smlcLocReqGotTaOnenter L io r)
  | .rxBsslapReset cellId ta => do
      setReq r fun x => { x with
        taPresent := true, ta := ta, latestCellId := updateCi L x.latestCellId cellId.toInt16 }
      smlcLocReqFsmStateChg r .gotTa (smlcLocReqGotTaOnenter L io r)
  | .rxLePerformLocationAbort => do
      emit (.locReqAbort r)
      smlcLocReqTerm lbConnClose r
  | .other _ => Prog.crash (.osmoAssert .smlcLocReqWaitTaAction)

/-- `osmo_fsm_inst_dispatch` on a location request; only WAIT_TA has an action. -/
def smlcLocReqDispatch (r : ReqPtr) (msg : LocReqMsg) : M Int :=
  smlcLocReqFsm.dispatch .useAfterFree (smlcLocReqFi r) msg.event (pure ())
    fun st =>
      match st with
      | .waitTa => smlcLocReqWaitTaAction L io r msg
      | _ => pure ()

def smlcLocReqFsmTimerCb (r : ReqPtr) : M Int := do
  smlcLocReqFail io r .systemFailure
  return 1

/-- T-12 expires. -/
def smlcLocReqTimeout (r : ReqPtr) : M Unit :=
  Fsm.tmrCb .useAfterFree (smlcLocReqFi r) (smlcLocReqFsmTimerCb io r)
    (smlcLocReqTerm lbConnClose r)

def smlcLocReqAlloc : M ReqPtr := do
  let r ← Prog.read fun w => w.next.req
  Prog.modify fun w => w.addReq
    ⟨r, ⟨.init, false, false⟩, none, default, false, 0, default, none⟩
  return r

/-- The part of `smlc_loc_req_start` that binds the subscriber of the request to the
connection; the result is the early return code, or zero. -/
def smlcLocReqStartSubscr (c : ConnPtr) (imsi : MobileIdentity) : M Int := do
  let lbConn ← derefConn c
  let smlcSubscr ← onSubscrs (smlcSubscrFindOrCreate L imsi .smlcLocReqStart)
  if lbConn.smlcSubscr.isSome ∧ lbConn.smlcSubscr ≠ some smlcSubscr then
    onSubscrs (smlcSubscrPut smlcSubscr .smlcLocReqStart)
    return -einval
  else
    let otherConn ← lbConnFindBySmlcSubscr lbConn.smlcSubscr .smlcLocReqStart
    Prog.ifTrue lbConn.smlcSubscr.isNone do
      setConn c fun x => { x with smlcSubscr := some smlcSubscr }
      onSubscrs (smlcSubscrGet smlcSubscr .lbConn)
    Prog.ifSome otherConn fun other => Prog.ifTrue (other ≠ c) (lbConnClose other)
    onSubscrs (smlcSubscrPut smlcSubscr .smlcLocReqStart)
    Prog.ifSome otherConn fun other => lbConnPut lbConnClose other .smlcLocReqStart
    return 0

/-- Whether the request names an IMSI that the connection is not bound to. -/
def smlcLocReqStartBinds (c : ConnPtr) (imsi : MobileIdentity) : M Bool := do
  if imsi.type = .imsi then
    let lbConn ← derefConn c
    match lbConn.smlcSubscr with
    | none => return true
    | some s =>
        let smlcSubscr ← onSubscrs (derefSubscr s)
        return L.mobileIdentityCmp imsi smlcSubscr.imsi ≠ 0
  else return false

/-- The part of `smlc_loc_req_start` that creates the request and starts its timeout. -/
def smlcLocReqStartFsm (c : ConnPtr) (locReqPdu : PerformLocReq) : M Unit := do
  let r ← smlcLocReqAlloc
  setReq r fun x => { x with
    lbConn := some c, req := locReqPdu, latestCellId := locReqPdu.cellId }
  setConn c fun x => { x with smlcLocReq := some r }
  lbConnGet lbConnClose c .smlcLocReq
  smlcLocReqFsmStateChg r .waitTa (smlcLocReqWaitTaOnenter L io r)
  emit (.locReqAccepted r c locReqPdu)

/-- The state of the peer of a connection, for the record. -/
def World.connPeerState (w : World) (c : ConnPtr) : Option LbPeerState := do
  let lbConn ← w.lbConn? c
  let p ← lbConn.lbPeer
  let lbPeer ← w.lbPeer? p
  return lbPeer.fi.state

def smlcLocReqStart (c : ConnPtr) (locReqPdu : PerformLocReq) : M Int := do
  emit (.locReqRx c (← Prog.read fun w => w.connPeerState c))
  onNet fun n => ((), { n with
    ctrs.rxDt1PerformLocationRequest := n.ctrs.rxDt1PerformLocationRequest + 1 })
  let lbConn ← derefConn c
  if lbConn.smlcLocReq.isSome then return -eagain
  else
    let binds ← smlcLocReqStartBinds L c locReqPdu.imsi
    let rc ← if binds then smlcLocReqStartSubscr L c locReqPdu.imsi else pure 0
    if rc ≠ 0 then return rc
    else
      smlcLocReqStartFsm L io c locReqPdu
      return 0

def handleBssmapLeConnOrientedInfo (smlcLocReq : Option ReqPtr) : BsslapPdu → M Int
  | .taResponse cellId ta => do
      let r ← Prog.deref (.nullDeref .handleBssmapLeConnOrientedInfo) fun _ => smlcLocReq
      smlcLocReqDispatch L io r (.rxTaResponse cellId ta)
  | .reset cellId ta => do
      let r ← Prog.deref (.nullDeref .handleBssmapLeConnOrientedInfo) fun _ => smlcLocReq
      smlcLocReqDispatch L io r (.rxBsslapReset cellId ta)
  | .abort => do
      let r ← Prog.deref (.nullDeref .handleBssmapLeConnOrientedInfo) fun _ => smlcLocReq
      smlcLocReqFail io r .requestAborted
      return 0
  | .reject => do
      let r ← Prog.deref (.nullDeref .handleBssmapLeConnOrientedInfo) fun _ => smlcLocReq
      smlcLocReqFail io r .requestAborted
      return 0
  | _ => return -enotsup

def smlcLocReqRxBssapLe (c : ConnPtr) (bssapLe : BssapLePdu) : M Int := do
  let lbConn ← derefConn c
  match bssapLe with
  | .other _ => return -enotsup
  | .bssmapLe (.performLocReq pdu) => smlcLocReqStart L io c pdu
  | .bssmapLe .performLocAbort =>
      let r ← Prog.deref (.nullDeref .smlcLocReqRxBssapLe) fun _ => lbConn.smlcLocReq
      smlcLocReqDispatch L io r .rxLePerformLocationAbort
  | .bssmapLe (.connOrientedInfo apdu) =>
      handleBssmapLeConnOrientedInfo L io lbConn.smlcLocReq apdu
  | .bssmapLe _ => return -enotsup

/-- `lb_conn_rx`; its parameter `initial` is not looked at. -/
def lbConnRx (c : ConnPtr) (l2 : List UInt8) : M Int :=
  match L.bssapLeDec l2 with
  | none => return -einval
  | some bssapLe => smlcLocReqRxBssapLe L io c bssapLe

/-- A location request is given up on behalf of a RESET. -/
def smlcLocReqReset (c : ConnPtr) : M Unit := do
  let lbConn ← derefConn c
  Prog.ifSome lbConn.smlcLocReq fun r => smlcLocReqFail io r .systemFailure

end OsmoSmlc
