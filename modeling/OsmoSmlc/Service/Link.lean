import OsmoSmlc.Core.Part
import OsmoSmlc.Properties.Refinement
import OsmoSmlc.Service.Independent

/-! The Lb interface as one peer knows it: whether the RESET procedure was done, which of its
connections have a request pending, and what is sent to it. Nothing of other peers, of
subscribers or of objects and their addresses appears. -/
namespace OsmoSmlc
open Osmo

/-- An event as it can be named from outside: a timer by what it runs for. -/
inductive LbEvent where
  | scu (prim : ScuInd)
  | locReqTimer (connId : ConnId)
  | lbPeerTimer (addr : SccpAddr)
  | vty (cmd : VtyCmd)

structure LbInput where
  ev : LbEvent
  io : Io

/-- The event of the process, if there is what it is named by. -/
def World.event? (L : Libosmo) (w : World) : LbEvent → Option Event
  | .scu prim => some (.scu prim)
  | .locReqTimer connId => ((w.connById connId).bind LbConn.smlcLocReq).map .locReqTimer
  | .lbPeerTimer addr => (w.lbPeerFind L addr).map fun x => .lbPeerTimer x.ptr
  | .vty cmd => some (.vty cmd)

def lbStep (L : Libosmo) (w : World) (i : LbInput) : Except Crash World :=
  match w.event? L i.ev with
  | some ev => step L w ⟨ev, i.io⟩
  | none => .ok w

/-- What the process holds for one peer. -/
structure Link where
  scu : Bool
  cells : CellStore
  peer : Option (LbPeerState × SccpAddr)
  requests : List (ConnId × PerformLocReq)

namespace Link

variable (L : Libosmo) (io : Io) (l : Link)

def init (scu : Bool) : Link := ⟨scu, [], none, []⟩

/-- A message that can be encoded is handed to the SCCP layer, if there is one. -/
def send (req : ScuReq) (pdu : BssmapLePdu) : List Act :=
  if io.bssapLeEnc (.bssmapLe pdu) && l.scu then [.sapDown req 0 (io.sapDown req)] else []

def sendCo (connId : ConnId) (pdu : BssmapLePdu) : List Act :=
  l.send io (.nData connId (.bssmapLe pdu)) pdu

def sendCl (called : SccpAddr) (pdu : BssmapLePdu) : List Act :=
  l.send io (.nUnitdata called (.bssmapLe pdu)) pdu

def failed (connId : ConnId) (cause : LcsCause) : List Act :=
  l.sendCo io connId (.performLocResp ⟨none, some cause⟩)

def gotTa (connId : ConnId) (cellId : CellId) (ta : UInt8) : List Act :=
  match Net.estimate L l.cells cellId ta with
  | none => l.failed io connId .facilityNotsupp
  | some raw =>
      if io.bssapLeEnc (.bssmapLe (.performLocResp ⟨some raw, none⟩)) then
        l.sendCo io connId (.performLocResp ⟨some raw, none⟩)
      else l.failed io connId .systemFailure

def answer (connId : ConnId) (pdu : PerformLocReq) : Ending → List Act
  | .locAbort => []
  | .ta cellId ta => l.gotTa L io connId (updateCi L pdu.cellId cellId.toInt16) ta
  | .failure cause => l.failed io connId cause

def without (connId : ConnId) : Link :=
  { l with requests := l.requests.filter fun q => q.1 ≠ connId }

/-- The end of a request, if one is pending on the connection. -/
def finish (connId : ConnId) (e : Ending) : Link × List Act :=
  match l.requests.find? fun q => q.1 = connId with
  | some q => (l.without connId, l.answer L io connId q.2 e ++ [.disconn connId])
  | none => (l, [])

def data (connId : ConnId) : Msg → Link × List Act
  | .ending e => l.finish L io connId e
  | _ => (l, [])

def enter (st : LbPeerState) (peerAddr : SccpAddr) : Link := { l with peer := some (st, peerAddr) }

def reset (peerAddr : SccpAddr) : Link × List Act :=
  (l.enter (if Effect.accepted io l.scu peerAddr .reset then .waitRxResetAck else .waitRxReset)
    peerAddr, l.sendCl io peerAddr .reset)

def rxReset (peerAddr : SccpAddr) : Link × List Act :=
  ({ l.enter (if Effect.accepted io l.scu peerAddr .resetAck then .ready else .waitRxReset)
      peerAddr with requests := [] }, l.sendCl io peerAddr .resetAck)

/-- The state of the peer, and the address that it is known under. -/
def peerOr (addr : SccpAddr) : LbPeerState × SccpAddr := l.peer.getD (.waitRxReset, addr)

/-- The first message of a connection in READY. -/
def openConn (connId : ConnId) : Msg → Except Crash (Link × List Act)
  | .ignored => .ok (l, [.disconn connId])
  | .request pdu =>
      match pdu.apdu with
      | some (.taLayer3 ta) =>
          .ok (l, l.gotTa L io connId pdu.cellId ta ++ [.disconn connId])
      | _ => .ok ({ l with requests := (connId, pdu) :: l.requests },
          l.sendCo io connId (.connOrientedInfo .taRequest))
  | .ending e => .error (.nullDeref e.fn)

def connect (connId : ConnId) (addr : SccpAddr) (m : Msg) : Except Crash (Link × List Act) :=
  if l.requests.any fun q => q.1 = connId then .ok (l, [.disconn connId])
  else
    let (st, peerAddr) := l.peerOr addr
    match st with
    | .waitRxReset => .ok (l.reset io peerAddr)
    | .waitRxResetAck => .ok ((l.reset io peerAddr).1, .disconn connId :: (l.reset io peerAddr).2)
    | .ready => l.openConn L io connId m
    | .discarding => .ok (l, [])

def unitdata (addr : SccpAddr) (l2 : List UInt8) : Link × List Act :=
  let (st, peerAddr) := l.peerOr addr
  match L.bssmapLeMsgt l2 with
  | .reset => l.rxReset io peerAddr
  | .resetAck => (l.enter (if st = .waitRxResetAck then .ready else st) peerAddr, [])
  | .other _ => (l.enter st peerAddr, [])

def rxPrim : ScuInd → Except Crash (Link × List Act)
  | .nConnect connId addr l2 =>
      if l2.length = 0 then .ok (l, [])
      else
        match l.connect L io connId addr (L.msg l2) with
        | .ok (l, acts) => .ok (l, .connResp connId :: acts)
        | .error e => .error e
  | .nData connId l2 => .ok (l.data L io connId (L.msg l2))
  | .nDisconnect connId l2 =>
      let (l, acts) := if l2.length ≠ 0 then l.data L io connId (L.msg l2) else (l, [])
      .ok (l, acts ++ [.disconn connId])
  | .nUnitdata addr l2 => .ok (l.unitdata L io addr l2)
  | .unsupported _ => .ok (l, [])

/-- Only a peer that is waited for has a timer. -/
def lbPeerTimeout : Link :=
  match l.peer with
  | some (.waitRxResetAck, peerAddr) => l.enter .waitRxReset peerAddr
  | _ => l

def handle : LbEvent → Except Crash (Link × List Act)
  | .scu prim => l.rxPrim L io prim
  | .locReqTimer connId => .ok (l.finish L io connId (.failure .systemFailure))
  | .lbPeerTimer _ => .ok (l.lbPeerTimeout, [])
  | .vty cmd => .ok ({ l with cells := (vtyCommand L l.cells cmd).2 }, [])

end Link

/-- The interface together with all that was shown on it. -/
abbrev LinkLog := Link × List Act

def LinkLog.step (L : Libosmo) (s : LinkLog) (i : LbInput) : Except Crash LinkLog :=
  match s.1.handle L i.io i.ev with
  | .ok (l, acts) => .ok (l, s.2 ++ acts)
  | .error e => .error e

/-! A peer is named by an address, and has connection ids of its own. -/
section Own

variable (L : Libosmo) (addr : SccpAddr) (ids : ConnId → Bool)

def ScuReq.shownTo : ScuReq → Bool
  | .nConnect called _ _ | .nUnitdata called _ => L.sccpAddrRiCmp addr called = 0
  | .nData connId _ => ids connId

/-- What the peer gets to see of an act. -/
def Act.shownTo : Act → Option Act
  | .connResp connId => if ids connId then some (.connResp connId) else none
  | .disconn connId => if ids connId then some (.disconn connId) else none
  | .sapDown req _ rc => if req.shownTo L addr ids then some (.sapDown req 0 rc) else none
  | _ => none

/-- The events of the peer and its connections; a command of the operator is for all peers. -/
def LbEvent.concerns : LbEvent → Bool
  | .scu (.nConnect _ calling _) | .scu (.nUnitdata calling _) => L.sccpAddrRiCmp addr calling = 0
  | .scu (.nData connId _) | .scu (.nDisconnect connId _) => ids connId
  | .scu (.unsupported _) => false
  | .locReqTimer connId => ids connId
  | .lbPeerTimer a => L.sccpAddrRiCmp addr a = 0
  | .vty _ => true

/-- The SCCP layer opens connections of the peer, and of no other, under its ids. -/
def LbEvent.Respects : LbEvent → Prop
  | .scu (.nConnect connId calling _) => ids connId = decide (L.sccpAddrRiCmp addr calling = 0)
  | _ => True

def Session.request (s : Session) : ConnId × PerformLocReq := (s.connId, s.pdu)

def Service.link (a : Service) : Link where
  scu := a.net.scu
  cells := a.cellLocations
  peer := (a.lbPeers.find? fun x => L.sccpAddrRiCmp addr x.peerAddr = 0).map
    fun x => (x.fi.state, x.peerAddr)
  requests := (a.sessions.filter fun s => ids s.connId).map Session.request

/-- The interface to the peer, as the objects of the process have it. -/
def World.link (w : World) : LinkLog :=
  (w.service.link L addr ids, w.net.log.filterMap (Act.shownTo L addr ids))

end Own
end OsmoSmlc
