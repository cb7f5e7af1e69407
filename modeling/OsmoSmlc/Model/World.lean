import Mathlib.Tactic.Simps.Basic
import OsmoSmlc.Core.Fsm
import OsmoSmlc.Core.KeyedList
import OsmoSmlc.Core.UseCount
import OsmoSmlc.Model.Libosmo

/-! The state of the SMLC process: the objects with their addresses, the lists they
are linked into, the counters, and a record of what the process did. Addresses are
never reused, so that following a pointer to a freed object fails. -/
namespace OsmoSmlc
open Osmo

abbrev PeerPtr := Nat
abbrev ConnPtr := Nat
abbrev ReqPtr := Nat
abbrev SubscrPtr := Nat
abbrev MsgbPtr := Nat

/-- The functions in which the process can die. -/
inductive Fn where
  | smlcSubscrGet | smlcSubscrPut | lbConnGet | lbConnPut
  | lbPeerAllstateAction | lbPeerStWaitRxReset | lbPeerStWaitRxResetAck | lbPeerStReady
  | lbPeerUpL2 | lbConnSendBssmapLe | smlcLocReqRxBssapLe | handleBssmapLeConnOrientedInfo
  | smlcLocReqWaitTaAction
  deriving DecidableEq

inductive Crash where
  | nullDeref (fn : Fn)
  | osmoAssert (fn : Fn)
  | useAfterFree
  | outOfFuel
  deriving DecidableEq

/-- The use tokens. `smlc_loc_req_start` and `lb_peer_st_ready` take one under their own names. -/
inductive Use where
  | smlcLocReq | lbConn
  | smlcLocReqStart | lbPeerStReady
  deriving DecidableEq

/-- `struct smlc_subscr`. -/
structure SmlcSubscr (τ : Type) where
  ptr : SubscrPtr
  imsi : MobileIdentity
  useCount : UseCount τ
  deriving DecidableEq

/-- `g_smlc->subscribers`. -/
structure Subscribers (τ : Type) where
  list : List (SmlcSubscr τ)
  next : SubscrPtr
  deriving DecidableEq

/-- `struct cell_location`. -/
structure CellLocation where
  cellId : CellId
  lat : Int32
  lon : Int32
  deriving DecidableEq

inductive LbPeerState where
  | waitRxReset | waitRxResetAck | ready | discarding
  deriving DecidableEq

inductive LbPeerEvent where
  | msgUpCl | msgUpCoInitial | msgUpCo
  | msgDownCl | msgDownCoInitial | msgDownCo
  | rxReset | rxResetAck
  | connectionSuccess | connectionTimeout
  deriving DecidableEq

/-- `lb_peer_fsm`, `lb_peer_fsm_states` and `lb_peer_fsm_timeouts`. -/
def lbPeerFsm : Fsm LbPeerState LbPeerEvent where
  inEvent
    | .waitRxReset, .rxReset | .waitRxReset, .msgUpCoInitial | .waitRxReset, .msgUpCo
    | .waitRxReset, .connectionTimeout => true
    | .waitRxResetAck, .rxReset | .waitRxResetAck, .rxResetAck
    | .waitRxResetAck, .msgUpCoInitial | .waitRxResetAck, .msgUpCo
    | .waitRxResetAck, .connectionTimeout => true
    | .ready, .rxReset | .ready, .msgUpCoInitial | .ready, .msgUpCo
    | .ready, .msgDownCoInitial | .ready, .msgDownCo | .ready, .msgDownCl => true
    | _, _ => false
  outState
    | .discarding, _ => false
    | _, _ => true
  allstateEvent
    | .msgUpCl => true
    | _ => false
  timeout
    | .waitRxResetAck | .discarding => true
    | _ => false

/-- `struct lb_peer`. -/
structure LbPeer where
  ptr : PeerPtr
  fi : FsmInst LbPeerState
  peerAddr : SccpAddr
  deriving DecidableEq

/-- `struct lb_conn`. -/
structure LbConn where
  ptr : ConnPtr
  useCount : UseCount Use
  lbPeer : Option PeerPtr
  sccpConnId : ConnId
  closing : Bool
  smlcSubscr : Option SubscrPtr
  smlcLocReq : Option ReqPtr
  deriving DecidableEq

inductive LocReqState where
  | init | waitTa | gotTa | failed
  deriving DecidableEq

inductive LocReqEvent where
  | rxTaResponse | rxBsslapReset | rxLePerformLocationAbort
  | other (event : UInt32)
  deriving DecidableEq

/-- `smlc_loc_req_fsm`, `smlc_loc_req_fsm_states` and `smlc_loc_req_fsm_timeouts`, for a T-12
that is not zero. (`g_smlc_tdefs` sets its default only, and nothing resets it to that.) -/
def smlcLocReqFsm : Fsm LocReqState LocReqEvent where
  inEvent
    | .waitTa, .rxTaResponse | .waitTa, .rxBsslapReset
    | .waitTa, .rxLePerformLocationAbort => true
    | _, _ => false
  outState
    | .init, .waitTa | .init, .failed => true
    | .waitTa, .gotTa | .waitTa, .failed => true
    | .gotTa, .failed => true
    | _, _ => false
  allstateEvent _ := false
  timeout
    | .waitTa => true
    | _ => false

/-- `struct smlc_loc_req`. -/
structure SmlcLocReq where
  ptr : ReqPtr
  fi : FsmInst LocReqState
  lbConn : Option ConnPtr
  req : PerformLocReq
  taPresent : Bool
  ta : UInt8
  latestCellId : CellId
  lcsCause : Option LcsCause
  deriving DecidableEq

/-- The counters of `smlc_ctr_description` that are incremented anywhere. -/
structure Ctrs where
  rxDt1PerformLocationRequest : Nat
  txErrConnNotReady : Nat
  txErrSend : Nat
  txSuccess : Nat
  deriving DecidableEq

/-- What the process does that others can see, and the steps of its own objects. -/
inductive Act where
  | connResp (connId : ConnId)
  | disconn (connId : ConnId)
  | bssapLeEnc (pdu : BssapLePdu) (msg : Option MsgbPtr)
  | sapDown (req : ScuReq) (msg : MsgbPtr) (rc : Int)
  | msgbFree (msg : MsgbPtr)
  | peerDispatch (peer : PeerPtr) (st : LbPeerState) (ev : LbPeerEvent)
  | msgDownCo (conn : ConnPtr) (req : Option ReqPtr) (pdu : BssapLePdu)
  | locReqRx (conn : ConnPtr) (peer : Option LbPeerState)
  | locReqAccepted (req : ReqPtr) (conn : ConnPtr) (pdu : PerformLocReq)
  | locReqAbort (req : ReqPtr)
  | locReqCleanup (req : ReqPtr)
  | resetDiscard (peer : PeerPtr) (req : Option ReqPtr)
  | connFree (conn : ConnPtr)
  deriving DecidableEq

/-- The side towards the SCCP layer: `scu` says whether the SCCP user is bound. -/
structure Net where
  scu : Bool
  ctrs : Ctrs
  nextMsgb : MsgbPtr
  log : List Act
  deriving DecidableEq

/-- The addresses that the next objects get. -/
structure Alloc where
  peer : PeerPtr
  conn : ConnPtr
  req : ReqPtr
  deriving DecidableEq

@[ext] structure World where
  lbPeers : List LbPeer
  lbConns : List LbConn
  locReqs : List SmlcLocReq
  subscrs : Subscribers Use
  cellLocations : List CellLocation
  next : Alloc
  net : Net
  deriving DecidableEq

/-- The process after `smlc_state_alloc` and `sccp_lb_init`. -/
def World.init (scu : Bool) : World where
  lbPeers := []
  lbConns := []
  locReqs := []
  subscrs := ⟨[], 0⟩
  cellLocations := []
  next := ⟨0, 0, 0⟩
  net := ⟨scu, ⟨0, 0, 0, 0⟩, 0, []⟩

namespace World

def lbPeer? (w : World) (p : PeerPtr) : Option LbPeer := KeyedList.lookup LbPeer.ptr w.lbPeers p
def lbConn? (w : World) (c : ConnPtr) : Option LbConn := KeyedList.lookup LbConn.ptr w.lbConns c
def locReq? (w : World) (r : ReqPtr) : Option SmlcLocReq :=
  KeyedList.lookup SmlcLocReq.ptr w.locReqs r

@[simps] def updPeer (w : World) (p : PeerPtr) (f : LbPeer → LbPeer) : World :=
  { w with lbPeers := KeyedList.update LbPeer.ptr w.lbPeers p f }

@[simps] def updConn (w : World) (c : ConnPtr) (f : LbConn → LbConn) : World :=
  { w with lbConns := KeyedList.update LbConn.ptr w.lbConns c f }

@[simps] def updReq (w : World) (r : ReqPtr) (f : SmlcLocReq → SmlcLocReq) : World :=
  { w with locReqs := KeyedList.update SmlcLocReq.ptr w.locReqs r f }

/-- `llist_add` of a new object at the head of its list. -/
@[simps] def addPeer (w : World) (x : LbPeer) : World :=
  { w with lbPeers := x :: w.lbPeers, next := { w.next with peer := x.ptr + 1 } }

@[simps] def addConn (w : World) (x : LbConn) : World :=
  { w with lbConns := x :: w.lbConns, next := { w.next with conn := x.ptr + 1 } }

/-- A new state machine instance, which is in no list of the SMLC. -/
@[simps] def addReq (w : World) (x : SmlcLocReq) : World :=
  { w with locReqs := x :: w.locReqs, next := { w.next with req := x.ptr + 1 } }

/-- `llist_del` and `talloc_free` of a connection. -/
@[simps] def delConn (w : World) (c : ConnPtr) : World :=
  { w with lbConns := KeyedList.remove LbConn.ptr w.lbConns c }

@[simps] def delPeer (w : World) (p : PeerPtr) : World :=
  { w with lbPeers := KeyedList.remove LbPeer.ptr w.lbPeers p }

@[simps] def setNet (w : World) (n : Net) : World := { w with net := n }

@[simps] def setSubscrs (w : World) (t : Subscribers Use) : World := { w with subscrs := t }

section Getters

variable {w : World} {p p' : PeerPtr} {c c' : ConnPtr} {r r' : ReqPtr} {n n' : Net}
  {t t' : Subscribers Use} {f : LbPeer → LbPeer} {g g' : LbConn → LbConn}
  {h h' : SmlcLocReq → SmlcLocReq}

@[simp] theorem lbPeer?_updConn : (w.updConn c g).lbPeer? p = w.lbPeer? p := rfl
@[simp] theorem lbPeer?_updReq : (w.updReq r h).lbPeer? p = w.lbPeer? p := rfl
@[simp] theorem lbPeer?_delConn : (w.delConn c).lbPeer? p = w.lbPeer? p := rfl
@[simp] theorem lbPeer?_setNet : (w.setNet n).lbPeer? p = w.lbPeer? p := rfl
@[simp] theorem lbPeer?_setSubscrs : (w.setSubscrs t).lbPeer? p = w.lbPeer? p := rfl
@[simp] theorem lbPeer?_addConn {x : LbConn} : (w.addConn x).lbPeer? p = w.lbPeer? p := rfl
@[simp] theorem lbPeer?_addReq {x : SmlcLocReq} : (w.addReq x).lbPeer? p = w.lbPeer? p := rfl

@[simp] theorem lbConn?_updPeer : (w.updPeer p f).lbConn? c = w.lbConn? c := rfl
@[simp] theorem lbConn?_updReq : (w.updReq r h).lbConn? c = w.lbConn? c := rfl
@[simp] theorem lbConn?_setNet : (w.setNet n).lbConn? c = w.lbConn? c := rfl
@[simp] theorem lbConn?_setSubscrs : (w.setSubscrs t).lbConn? c = w.lbConn? c := rfl
@[simp] theorem lbConn?_addPeer {x : LbPeer} : (w.addPeer x).lbConn? c = w.lbConn? c := rfl
@[simp] theorem lbConn?_addReq {x : SmlcLocReq} : (w.addReq x).lbConn? c = w.lbConn? c := rfl

@[simp] theorem locReq?_updPeer : (w.updPeer p f).locReq? r = w.locReq? r := rfl
@[simp] theorem locReq?_updConn : (w.updConn c g).locReq? r = w.locReq? r := rfl
@[simp] theorem locReq?_delConn : (w.delConn c).locReq? r = w.locReq? r := rfl
@[simp] theorem locReq?_setNet : (w.setNet n).locReq? r = w.locReq? r := rfl
@[simp] theorem locReq?_setSubscrs : (w.setSubscrs t).locReq? r = w.locReq? r := rfl
@[simp] theorem locReq?_addPeer {x : LbPeer} : (w.addPeer x).locReq? r = w.locReq? r := rfl
@[simp] theorem locReq?_addConn {x : LbConn} : (w.addConn x).locReq? r = w.locReq? r := rfl

@[simp] theorem lbPeer?_updPeer (hf : ∀ x, (f x).ptr = x.ptr) :
    (w.updPeer p f).lbPeer? p = (w.lbPeer? p).map f :=
  KeyedList.lookup_update_self hf

@[simp] theorem lbConn?_updConn (hg : ∀ x, (g x).ptr = x.ptr) :
    (w.updConn c g).lbConn? c = (w.lbConn? c).map g :=
  KeyedList.lookup_update_self hg

@[simp] theorem locReq?_updReq (hh : ∀ x, (h x).ptr = x.ptr) :
    (w.updReq r h).locReq? r = (w.locReq? r).map h :=
  KeyedList.lookup_update_self hh

@[simp] theorem lbConn?_addConn {x : LbConn} : (w.addConn x).lbConn? x.ptr = some x :=
  KeyedList.lookup_cons_self x

@[simp] theorem locReq?_addReq {x : SmlcLocReq} : (w.addReq x).locReq? x.ptr = some x :=
  KeyedList.lookup_cons_self x

@[simp] theorem lbPeer?_addPeer {x : LbPeer} : (w.addPeer x).lbPeer? x.ptr = some x :=
  KeyedList.lookup_cons_self x

end Getters

/-! Writes to different parts commute; the parts are brought into one order, with the
network side outermost, then the subscribers, then the requests. -/
section Normal

variable {w : World} {c : ConnPtr} {r : ReqPtr} {n n' : Net} {t t' : Subscribers Use}
  {g g' : LbConn → LbConn} {h h' : SmlcLocReq → SmlcLocReq} {p : PeerPtr} {f : LbPeer → LbPeer}
  {x : LbConn} {q : SmlcLocReq}

@[simp] theorem setNet_setNet : (w.setNet n).setNet n' = w.setNet n' := rfl
@[simp] theorem setNet_self : w.setNet w.net = w := rfl
@[simp] theorem setSubscrs_self : w.setSubscrs w.subscrs = w := rfl
@[simp] theorem setNet_updPeer : (w.setNet n).updPeer p f = (w.updPeer p f).setNet n := rfl
@[simp] theorem setNet_updConn : (w.setNet n).updConn c g = (w.updConn c g).setNet n := rfl
@[simp] theorem setNet_delConn : (w.setNet n).delConn c = (w.delConn c).setNet n := rfl
@[simp] theorem setNet_addConn : (w.setNet n).addConn x = (w.addConn x).setNet n := rfl
@[simp] theorem setNet_updReq : (w.setNet n).updReq r h = (w.updReq r h).setNet n := rfl
@[simp] theorem setNet_addReq : (w.setNet n).addReq q = (w.addReq q).setNet n := rfl
@[simp] theorem setNet_setSubscrs :
    (w.setNet n).setSubscrs t = (w.setSubscrs t).setNet n := rfl
@[simp] theorem setSubscrs_setSubscrs : (w.setSubscrs t).setSubscrs t' = w.setSubscrs t' := rfl
@[simp] theorem setSubscrs_updConn :
    (w.setSubscrs t).updConn c g = (w.updConn c g).setSubscrs t := rfl
@[simp] theorem setSubscrs_delConn :
    (w.setSubscrs t).delConn c = (w.delConn c).setSubscrs t := rfl
@[simp] theorem setSubscrs_updReq :
    (w.setSubscrs t).updReq r h = (w.updReq r h).setSubscrs t := rfl
@[simp] theorem setSubscrs_addReq :
    (w.setSubscrs t).addReq q = (w.addReq q).setSubscrs t := rfl
@[simp] theorem updReq_updConn : (w.updReq r h).updConn c g = (w.updConn c g).updReq r h := rfl
@[simp] theorem updReq_delConn : (w.updReq r h).delConn c = (w.delConn c).updReq r h := rfl
@[simp] theorem addReq_updConn : (w.addReq q).updConn c g = (w.updConn c g).addReq q := rfl
@[simp] theorem addReq_delConn : (w.addReq q).delConn c = (w.delConn c).addReq q := rfl

@[simp] theorem updConn_delConn (hg : ∀ x, (g x).ptr = x.ptr) :
    (w.updConn c g).delConn c = w.delConn c := by
  simp [World.ext_iff, KeyedList.remove_update hg]

@[simp] theorem updReq_updReq (hh : ∀ x, (h x).ptr = x.ptr) :
    (w.updReq r h).updReq r h' = w.updReq r (h' ∘ h) := by
  simp [World.ext_iff, KeyedList.update_update hh]

@[simp] theorem updConn_updConn (hg : ∀ x, (g x).ptr = x.ptr) :
    (w.updConn c g).updConn c g' = w.updConn c (g' ∘ g) := by
  simp [World.ext_iff, KeyedList.update_update hg]

end Normal

end World

/-- A function body of the SMLC. -/
abbrev M := Prog Crash World

def lbPeerFi (p : PeerPtr) : FsmRef World LbPeerState where
  get w := (w.lbPeer? p).map LbPeer.fi
  set fi w := w.updPeer p fun x => { x with fi := fi }

def smlcLocReqFi (r : ReqPtr) : FsmRef World LocReqState where
  get w := (w.locReq? r).map SmlcLocReq.fi
  set fi w := w.updReq r fun x => { x with fi := fi }

def derefPeer (p : PeerPtr) : M LbPeer := Prog.deref .useAfterFree fun w => w.lbPeer? p
def derefConn (c : ConnPtr) : M LbConn := Prog.deref .useAfterFree fun w => w.lbConn? c
def derefReq (r : ReqPtr) : M SmlcLocReq := Prog.deref .useAfterFree fun w => w.locReq? r

def setConn (c : ConnPtr) (f : LbConn → LbConn) : M Unit := Prog.modify fun w => w.updConn c f
def setReq (r : ReqPtr) (f : SmlcLocReq → SmlcLocReq) : M Unit :=
  Prog.modify fun w => w.updReq r f

def onNet {α : Type} (f : Net → α × Net) : M α :=
  Prog.act fun w => ((f w.net).1, w.setNet (f w.net).2)

def onSubscrs {α : Type} (x : Prog Crash (Subscribers Use) α) : M α :=
  Prog.zoom World.subscrs (fun t w => w.setSubscrs t) x

namespace Net

def emit (a : Act) (n : Net) : Net := { n with log := n.log ++ [a] }

/-- `osmo_bssap_le_enc`: a new buffer that holds the message, unless encoding fails. -/
def bssapLeEnc (io : Io) (pdu : BssapLePdu) (n : Net) : Option MsgbPtr × Net :=
  if io.bssapLeEnc pdu then
    (some n.nextMsgb, { n.emit (.bssapLeEnc pdu (some n.nextMsgb)) with nextMsgb := n.nextMsgb + 1 })
  else (none, n.emit (.bssapLeEnc pdu none))

/-- `sccp_lb_sap_down`. -/
def sccpLbSapDown (io : Io) (req : ScuReq) (msg : MsgbPtr) (n : Net) : Int × Net :=
  if !n.scu then
    (-eio, { n with ctrs.txErrConnNotReady := n.ctrs.txErrConnNotReady + 1 })
  else
    let rc := io.sapDown req
    let n := n.emit (.sapDown req msg rc)
    if rc ≥ 0 then (rc, { n with ctrs.txSuccess := n.ctrs.txSuccess + 1 })
    else (rc, { n with ctrs.txErrSend := n.ctrs.txErrSend + 1 })

end Net

def emit (a : Act) : M Unit := onNet fun n => ((), n.emit a)

/-- `msgb_free`, as an act on record: to free a buffer twice, as `lb_peer_rx_reset` can make
`sccp_lb_sap_up` do, is no failure here, though the process need not survive it. -/
def msgbFree (msg : MsgbPtr) : M Unit := emit (.msgbFree msg)

/-- `sccp_lb_disconnect`, which is `osmo_sccp_tx_disconn`. -/
def sccpLbDisconnect (connId : ConnId) : M Unit := emit (.disconn connId)

def sccpLbDownL2Co (io : Io) (connId : ConnId) (l2 : MsgbPtr) (pdu : BssapLePdu) : M Int :=
  onNet fun n => n.sccpLbSapDown io (.nData connId pdu) l2

def sccpLbDownL2CoInitial (io : Io) (called : SccpAddr) (connId : ConnId) (l2 : MsgbPtr)
    (pdu : BssapLePdu) : M Int :=
  onNet fun n => n.sccpLbSapDown io (.nConnect called connId pdu) l2

def sccpLbDownL2Cl (io : Io) (called : SccpAddr) (l2 : MsgbPtr) (pdu : BssapLePdu) : M Int :=
  onNet fun n => n.sccpLbSapDown io (.nUnitdata called pdu) l2

section Apply

variable {w : World}

@[simp] theorem onNet_apply {α : Type} (f : Net → α × Net) :
    onNet f w = .ok ((f w.net).1, w.setNet (f w.net).2) := rfl

@[simp] theorem emit_apply (a : Act) : emit a w = .ok ((), w.setNet (w.net.emit a)) := rfl

@[simp] theorem msgbFree_apply (msg : MsgbPtr) :
    msgbFree msg w = .ok ((), w.setNet (w.net.emit (.msgbFree msg))) := rfl

@[simp] theorem sccpLbDisconnect_apply (connId : ConnId) :
    sccpLbDisconnect connId w = .ok ((), w.setNet (w.net.emit (.disconn connId))) := rfl

@[simp] theorem setConn_apply (c : ConnPtr) (f : LbConn → LbConn) :
    setConn c f w = .ok ((), w.updConn c f) := rfl

@[simp] theorem setReq_apply (r : ReqPtr) (f : SmlcLocReq → SmlcLocReq) :
    setReq r f w = .ok ((), w.updReq r f) := rfl

theorem derefConn_ok {c : ConnPtr} {x : LbConn} (h : w.lbConn? c = some x) :
    derefConn c w = .ok (x, w) :=
  Prog.deref_some h

theorem derefReq_ok {r : ReqPtr} {x : SmlcLocReq} (h : w.locReq? r = some x) :
    derefReq r w = .ok (x, w) :=
  Prog.deref_some h

theorem derefPeer_ok {p : PeerPtr} {x : LbPeer} (h : w.lbPeer? p = some x) :
    derefPeer p w = .ok (x, w) :=
  Prog.deref_some h

theorem onSubscrs_ok {α : Type} {x : Prog Crash (Subscribers Use) α} {a : α}
    {t : Subscribers Use} (h : x w.subscrs = .ok (a, t)) :
    onSubscrs x w = .ok (a, w.setSubscrs t) :=
  Prog.zoom_ok h

end Apply

end OsmoSmlc
