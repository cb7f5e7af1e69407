import OsmoSmlc.Model.SccpLbInst

/-! The location service that the process provides, without its object graph: the
peers, the sessions (a connection together with its pending request) and what one
event does to them. Use counts, termination and freeing do not appear. -/
namespace OsmoSmlc
open Osmo

/-- A connection and the location request that is pending on it. -/
structure Session where
  conn : ConnPtr
  connId : ConnId
  peer : PeerPtr
  subscr : Option SubscrPtr
  req : ReqPtr
  pdu : PerformLocReq
  deriving DecidableEq

structure Subscr where
  ptr : SubscrPtr
  imsi : MobileIdentity
  deriving DecidableEq

@[ext] structure Service where
  lbPeers : List LbPeer
  sessions : List Session
  subscrs : List Subscr
  nextSubscr : SubscrPtr
  cellLocations : CellStore
  next : Alloc
  net : Net
  deriving DecidableEq

/-- What ends a pending request. -/
inductive Ending where
  | locAbort
  | ta (cellId : UInt16) (ta : UInt8)
  | failure (cause : LcsCause)
  deriving DecidableEq

/-- The functions that follow the request pointer of a connection unchecked. -/
def Ending.fn : Ending → Fn
  | .locAbort => .smlcLocReqRxBssapLe
  | .ta _ _ => .handleBssmapLeConnOrientedInfo
  | .failure _ => .handleBssmapLeConnOrientedInfo

/-- What a connection-oriented payload asks for. -/
inductive Msg where
  | ignored
  | request (pdu : PerformLocReq)
  | ending (e : Ending)
  deriving DecidableEq

def BssapLePdu.msg : BssapLePdu → Msg
  | .bssmapLe (.performLocReq pdu) => .request pdu
  | .bssmapLe .performLocAbort => .ending .locAbort
  | .bssmapLe (.connOrientedInfo (.taResponse cellId ta)) => .ending (.ta cellId ta)
  | .bssmapLe (.connOrientedInfo (.reset cellId ta)) => .ending (.ta cellId ta)
  | .bssmapLe (.connOrientedInfo .abort) => .ending (.failure .requestAborted)
  | .bssmapLe (.connOrientedInfo .reject) => .ending (.failure .requestAborted)
  | _ => .ignored

def Libosmo.msg (L : Libosmo) (l2 : List UInt8) : Msg :=
  match L.bssapLeDec l2 with
  | some pdu => pdu.msg
  | none => .ignored

namespace Net

variable (L : Libosmo) (io : Io)

def takeMsgb (n : Net) : Net := { n with nextMsgb := n.nextMsgb + 1 }

def countRequest (n : Net) : Net :=
  { n with ctrs.rxDt1PerformLocationRequest := n.ctrs.rxDt1PerformLocationRequest + 1 }

/-- A message on the connection of a session, whose peer is READY. -/
def sendCo (s : Session) (pdu : BssmapLePdu) (n : Net) : Int × Net :=
  match n.bssapLeEnc io (.bssmapLe pdu) with
  | (none, n) => (-einval, n)
  | (some msg, n) =>
      let n := n.emit (.peerDispatch s.peer .ready .msgDownCo)
      let n := n.emit (.msgDownCo s.conn (some s.req) (.bssmapLe pdu))
      (0, (n.sccpLbSapDown io (.nData s.connId (.bssmapLe pdu)) msg).2.emit (.msgbFree msg))

def failed (s : Session) (cause : LcsCause) (n : Net) : Net :=
  (n.sendCo io s (.performLocResp ⟨none, some cause⟩)).2

/-- The estimate for a cell and a timing advance, if there is one to be sent. -/
def estimate (cells : CellStore) (cellId : CellId) (ta : UInt8) : Option GadRaw :=
  match cellLocationFromTa L cells cellId ta with
  | none => none
  | some location => if (L.gadEnc location).1 ≤ 0 then none else some (L.gadEnc location).2

def gotTa (cells : CellStore) (s : Session) (cellId : CellId) (ta : UInt8) (n : Net) : Net :=
  match estimate L cells cellId ta with
  | none => n.failed io s .facilityNotsupp
  | some raw =>
      let (rc, n) := n.sendCo io s (.performLocResp ⟨some raw, none⟩)
      if rc ≠ 0 then n.failed io s .systemFailure else n

/-- What is sent when a pending request ends. -/
def answer (cells : CellStore) (s : Session) : Ending → Net → Net
  | .locAbort, n => n.emit (.locReqAbort s.req)
  | .ta cellId ta, n => n.gotTa L io cells s (updateCi L s.pdu.cellId cellId.toInt16) ta
  | .failure cause, n => n.failed io s cause

def ended (s : Session) (n : Net) : Net :=
  ((n.emit (.locReqCleanup s.req)).emit (.disconn s.connId)).emit (.connFree s.conn)

def discarded (p : PeerPtr) (n : Net) (s : Session) : Net :=
  ((n.emit (.resetDiscard p (some s.req))).emit (.locReqCleanup s.req)).emit (.connFree s.conn)

/-- RESET ACKNOWLEDGE to a peer, and the state that the peer is then in. -/
def sendResetAck (peerAddr : SccpAddr) (rx : MsgbPtr) (n : Net) : LbPeerState × Net :=
  match n.bssapLeEnc io (.bssmapLe .resetAck) with
  | (none, n) => (.waitRxReset, n)
  | (some resp, n) =>
      let (rc, n) := n.sccpLbSapDown io (.nUnitdata peerAddr (.bssmapLe .resetAck)) resp
      if rc ≠ 0 then (.waitRxReset, n.emit (.msgbFree rx)) else (.ready, n.emit (.msgbFree resp))

/-- RESET to a peer, and the state that the peer is then in. -/
def sendReset (peerAddr : SccpAddr) (n : Net) : LbPeerState × Net :=
  match n.bssapLeEnc io (.bssmapLe .reset) with
  | (none, n) => (.waitRxReset, n)
  | (some msg, n) =>
      let (rc, n) := n.sccpLbSapDown io (.nUnitdata peerAddr (.bssmapLe .reset)) msg
      (if rc ≠ 0 then .waitRxReset else .waitRxResetAck, n.emit (.msgbFree msg))

end Net

/-- How many sessions are bound to a subscriber. -/
def refs (sessions : List Session) (p : SubscrPtr) : Nat :=
  sessions.countP fun s => s.subscr = some p

namespace Service

variable (L : Libosmo) (io : Io)

def init (scu : Bool) : Service := ⟨[], [], [], 0, [], ⟨0, 0, 0⟩, (World.init scu).net⟩

def setNet (n : Net) (a : Service) : Service := { a with net := n }

def emit (act : Act) (a : Service) : Service := a.setNet (a.net.emit act)

/-- Only subscribers that a session is bound to stay listed. -/
def gc (a : Service) : Service :=
  { a with subscrs := a.subscrs.filter fun x => 0 < refs a.sessions x.ptr }

def drop (s : Session) (n : Net) (a : Service) : Service :=
  gc { a with sessions := KeyedList.remove Session.conn a.sessions s.conn, net := n }

def finish (s : Session) (e : Ending) (a : Service) : Service :=
  a.drop s ((a.net.answer L io a.cellLocations s e).ended s)

/-- A message on a session, which always has a request pending. -/
def rx (s : Session) (a : Service) : Msg → Service
  | .ignored => a
  | .request _ => a.setNet (a.net.emit (.locReqRx s.conn (some .ready))).countRequest
  | .ending e => a.finish L io s e

/-- The subscriber with an IMSI, listed last where it is new. -/
def bind (imsi : MobileIdentity) (a : Service) : SubscrPtr × Service :=
  match a.subscrs.find? fun x => L.mobileIdentityCmp x.imsi imsi = 0 with
  | some x => (x.ptr, a)
  | none => (a.nextSubscr,
      { a with subscrs := a.subscrs ++ [⟨a.nextSubscr, imsi⟩], nextSubscr := a.nextSubscr + 1 })

/-- The binding of a new session, for a request that names an IMSI. -/
def bindRequest (pdu : PerformLocReq) (a : Service) : Option SubscrPtr × Service :=
  if pdu.imsi.type = .imsi then
    let (p, a) := a.bind L pdu.imsi
    (some p, a)
  else (none, a)

/-- The session that a request on a new connection opens. -/
def newSession (p : PeerPtr) (connId : ConnId) (pdu : PerformLocReq) (a : Service) : Session :=
  ⟨a.next.conn, connId, p, (a.bindRequest L pdu).1, a.next.req, pdu⟩

def withSession (p : PeerPtr) (connId : ConnId) (pdu : PerformLocReq) (n : Net) (a : Service) :
    Service :=
  { (a.bindRequest L pdu).2 with
    sessions := a.newSession L p connId pdu :: a.sessions
    next := { a.next with conn := a.next.conn + 1, req := a.next.req + 1 }
    net := n }

/-- A request on a new connection: answered at once, or pending from now on. -/
def openSession (p : PeerPtr) (connId : ConnId) (pdu : PerformLocReq) (a : Service) : Service :=
  let s := a.newSession L p connId pdu
  let n := (a.net.emit (.locReqRx s.conn (some .ready))).countRequest
  match pdu.apdu with
  | some (.taLayer3 ta) =>
      let n := (n.gotTa L io a.cellLocations s pdu.cellId ta).emit (.locReqCleanup s.req)
      let n := (n.emit (.locReqAccepted s.req s.conn pdu)).emit (.disconn connId)
      (a.withSession L p connId pdu n).drop s (n.emit (.connFree s.conn))
  | _ =>
      let n := (n.sendCo io s (.connOrientedInfo .taRequest)).2
      a.withSession L p connId pdu (n.emit (.locReqAccepted s.req s.conn pdu))

/-- The first message of a connection from a peer in READY. A message for a pending
request finds none. -/
def openConn (p : PeerPtr) (connId : ConnId) (a : Service) : Msg → Except Crash Service
  | .ignored =>
      .ok { a with
        next.conn := a.next.conn + 1
        net := (a.net.emit (.disconn connId)).emit (.connFree a.next.conn) }
  | .request pdu => .ok (a.openSession L io p connId pdu)
  | .ending e => .error (.nullDeref e.fn)

/-- The peer with an address, listed first where it is new. -/
def peer (addr : SccpAddr) (a : Service) : LbPeer × Service :=
  match a.lbPeers.find? fun x => L.sccpAddrRiCmp addr x.peerAddr = 0 with
  | some x => (x, a)
  | none =>
      let x : LbPeer := ⟨a.next.peer, ⟨.waitRxReset, false, false⟩, addr⟩
      (x, { a with lbPeers := x :: a.lbPeers, next.peer := a.next.peer + 1 })

def setPeer (p : PeerPtr) (st : LbPeerState) (a : Service) : Service :=
  { a with lbPeers := KeyedList.update LbPeer.ptr a.lbPeers p fun x =>
      { x with fi := ⟨st, false, lbPeerFsm.timeout st⟩ } }

/-- Every session of the peer ends without a message to it. -/
def discardAll (p : PeerPtr) (a : Service) : Service :=
  gc { a with
    sessions := a.sessions.filter fun s => s.peer ≠ p
    net := (a.sessions.filter fun s => s.peer = p).foldl (Net.discarded p) a.net }

def reset (x : LbPeer) (a : Service) : Service :=
  (a.setPeer x.ptr (a.net.sendReset io x.peerAddr).1).setNet (a.net.sendReset io x.peerAddr).2

def ackReset (x : LbPeer) (msg : MsgbPtr) (a : Service) : Service :=
  (a.setPeer x.ptr (a.net.sendResetAck io x.peerAddr msg).1).setNet
    (a.net.sendResetAck io x.peerAddr msg).2

def rxReset (x : LbPeer) (msg : MsgbPtr) (a : Service) : Service :=
  (a.discardAll x.ptr).ackReset io x msg

def connectTo (x : LbPeer) (connId : ConnId) (m : Msg) (a : Service) : Except Crash Service :=
  match x.fi.state with
  | .waitRxReset => .ok (a.reset io x)
  | .waitRxResetAck => .ok ((a.emit (.disconn connId)).reset io x)
  | .ready => a.openConn L io x.ptr connId m
  | .discarding => .ok a

def connect (connId : ConnId) (addr : SccpAddr) (m : Msg) (a : Service) :
    Except Crash Service :=
  if a.sessions.any fun s => s.connId = connId then .ok (a.emit (.disconn connId))
  else
    let x := (a.peer L addr).1
    ((a.peer L addr).2.emit (.peerDispatch x.ptr x.fi.state .msgUpCoInitial)).connectTo L io x
      connId m

def data (connId : ConnId) (m : Msg) (a : Service) : Service :=
  match a.sessions.find? fun s => s.connId = connId with
  | some s => (a.emit (.peerDispatch s.peer .ready .msgUpCo)).rx L io s m
  | none => a

def unitdata (addr : SccpAddr) (l2 : List UInt8) (msg : MsgbPtr) (a : Service) : Service :=
  let x := (a.peer L addr).1
  let a := (a.peer L addr).2.emit (.peerDispatch x.ptr x.fi.state .msgUpCl)
  match L.bssmapLeMsgt l2 with
  | .reset => (a.emit (.peerDispatch x.ptr x.fi.state .rxReset)).rxReset io x msg
  | .resetAck =>
      let a := a.emit (.peerDispatch x.ptr x.fi.state .rxResetAck)
      if x.fi.state = .waitRxResetAck then a.setPeer x.ptr .ready else a
  | .other _ => a

def rxPrim (msg : MsgbPtr) (a : Service) : ScuInd → Except Crash Service
  | .nConnect connId addr l2 =>
      if l2.length = 0 then .ok a
      else (a.emit (.connResp connId)).connect L io connId addr (L.msg l2)
  | .nData connId l2 => .ok (a.data L io connId (L.msg l2))
  | .nDisconnect connId l2 =>
      let a := if l2.length ≠ 0 then a.data L io connId (L.msg l2) else a
      .ok (a.emit (.disconn connId))
  | .nUnitdata addr l2 => .ok (a.unitdata L io addr l2 msg)
  | .unsupported _ => .ok a

def locReqTimeout (r : ReqPtr) (a : Service) : Service :=
  match a.sessions.find? fun s => s.req = r with
  | some s => a.finish L io s (.failure .systemFailure)
  | none => a

def lbPeerTimeout (p : PeerPtr) (a : Service) : Service :=
  match KeyedList.lookup LbPeer.ptr a.lbPeers p with
  | some x => if x.fi.timer then a.setPeer p .waitRxReset else a
  | none => a

def handle (a : Service) : Event → Except Crash Service
  | .scu prim =>
      match (a.setNet a.net.takeMsgb).rxPrim L io a.net.nextMsgb prim with
      | .ok a' => .ok (a'.emit (.msgbFree a.net.nextMsgb))
      | .error e => .error e
  | .locReqTimer r => .ok (a.locReqTimeout L io r)
  | .lbPeerTimer p => .ok (a.lbPeerTimeout p)
  | .vty cmd => .ok { a with cellLocations := (vtyCommand L a.cellLocations cmd).2 }

def step (a : Service) (i : Input) : Except Crash Service := a.handle L i.io i.ev

end Service

/-! The objects that the process keeps for a service. -/

def Session.lbConn (s : Session) : LbConn where
  ptr := s.conn
  useCount := [(.smlcLocReq, 1)]
  lbPeer := some s.peer
  sccpConnId := s.connId
  closing := false
  smlcSubscr := s.subscr
  smlcLocReq := some s.req

def Session.locReq (s : Session) : SmlcLocReq where
  ptr := s.req
  fi := ⟨.waitTa, false, true⟩
  lbConn := some s.conn
  req := s.pdu
  taPresent := false
  ta := 0
  latestCellId := s.pdu.cellId
  lcsCause := none

def Subscr.smlcSubscr (sessions : List Session) (x : Subscr) : SmlcSubscr Use where
  ptr := x.ptr
  imsi := x.imsi
  useCount := [(.lbConn, (refs sessions x.ptr : Int))]

def Service.world (a : Service) : World where
  lbPeers := a.lbPeers
  lbConns := a.sessions.map Session.lbConn
  locReqs := a.sessions.map Session.locReq
  subscrs := ⟨a.subscrs.map (Subscr.smlcSubscr a.sessions), a.nextSubscr⟩
  cellLocations := a.cellLocations
  next := a.next
  net := a.net

end OsmoSmlc
