import OsmoSmlc.Model.LbConn

/-! Connections that the SMLC opens itself, and the SCCP connection ids that
`sccp_lb_inst.c` picks for them. No event makes the process open one yet. -/
namespace OsmoSmlc
open Osmo

/-- The process together with `next_id`, the static variable of `sccp_lb_inst_next_conn_id`. -/
structure ConnIds where
  world : World
  nextId : ConnId
  deriving DecidableEq

def ConnIds.init (scu : Bool) : ConnIds := ⟨World.init scu, 1⟩

namespace World

variable (w : World)

/-- `lb_peer_for_each_lb_conn`: the listed connections that are those of the peer. -/
def lbPeerConns (p : PeerPtr) : List LbConn := w.lbConns.filter fun conn => conn.lbPeer = some p

/-- The two inner loops, over the peers and their connections; both stop at the first match. -/
def connIdAlreadyUsed (connId : ConnId) : Bool :=
  w.lbPeers.any fun lbPeer =>
    (w.lbPeerConns lbPeer.ptr).any fun conn => connId == conn.sccpConnId

end World

/-- The loop of `sccp_lb_inst_next_conn_id`, with `n` turns to go: what it returns, and the
`next_id` that it leaves behind. -/
def nextConnIdLoop (w : World) : Nat → ConnId → Int × ConnId
  | 0, nextId => (-1, nextId)
  | n + 1, nextId =>
      let connId := nextId
      let nextId := (nextId + 1) &&& 0xffffff
      if w.connIdAlreadyUsed connId then nextConnIdLoop w n nextId
      else (connId.toInt32.toInt, nextId)

def sccpLbInstNextConnId (s : ConnIds) : Int × ConnIds :=
  let (rc, nextId) := nextConnIdLoop s.world 0xFFFFFF s.nextId
  (rc, { s with nextId := nextId })

/-- `none` is the null pointer. -/
def lbConnCreateOutgoing (lbPeer : PeerPtr) (use : Use) : Prog Crash ConnIds (Option ConnPtr) := do
  let newConnId ← Prog.act sccpLbInstNextConnId
  if newConnId < 0 then return none
  else
    let lbConn ← Prog.zoom ConnIds.world (fun w s => { s with world := w })
      (lbConnAlloc lbPeer (UInt32.ofInt newConnId) use)
    return some lbConn

end OsmoSmlc
