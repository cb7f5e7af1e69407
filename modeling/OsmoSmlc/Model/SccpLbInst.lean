import OsmoSmlc.Core.Run
import OsmoSmlc.Model.LbPeer

/-! The entry points of the process: the primitives that the SCCP layer hands up to
`sccp_lb_inst.c`, the timers and the VTY commands. One event is handled to its end
before the next; what was terminated meanwhile is freed by the main loop. -/
namespace OsmoSmlc
open Osmo

variable (L : Libosmo) (io : Io)

/-- The indications of the SCCP user SAP, with the L2 payload of their message buffer. -/
inductive ScuInd where
  | nConnect (connId : ConnId) (callingAddr : SccpAddr) (l2 : List UInt8)
  | nData (connId : ConnId) (l2 : List UInt8)
  | nDisconnect (connId : ConnId) (l2 : List UInt8)
  | nUnitdata (callingAddr : SccpAddr) (l2 : List UInt8)
  | unsupported (l2 : List UInt8)

def ScuInd.l2 : ScuInd → List UInt8
  | .nConnect _ _ l2 | .nData _ l2 | .nDisconnect _ l2 | .nUnitdata _ l2 | .unsupported l2 => l2

/-- `osmo_sccp_tx_conn_resp` and `osmo_sccp_tx_disconn`, whose results are not looked at. -/
def osmoSccpTxConnResp (connId : ConnId) : M Unit := emit (.connResp connId)
def osmoSccpTxDisconn (connId : ConnId) : M Unit := emit (.disconn connId)

/-- The switch of `sccp_lb_sap_up`. -/
def sccpLbSapUpPrim (msg : RxMsgb) : ScuInd → M Int
  | .nConnect connId callingAddr l2 =>
      if l2.length = 0 then return -1
      else do
        osmoSccpTxConnResp connId
        let rc ← lbPeerUpL2 L io (some callingAddr) true connId msg
        Prog.ifTrue (rc ≠ 0) (osmoSccpTxDisconn connId)
        return rc
  | .nData connId _ => lbPeerUpL2 L io none true connId msg
  | .nDisconnect connId l2 => do
      let rc ← if l2.length ≠ 0 then lbPeerUpL2 L io none true connId msg else pure 0
      sccpLbDisconnect connId
      return rc
  | .nUnitdata callingAddr _ => lbPeerUpL2 L io (some callingAddr) false 0 msg
  | .unsupported _ => return -1

/-- `sccp_lb_sap_up`, on the buffer that the SCCP layer allocated for the primitive. -/
def sccpLbSapUp (prim : ScuInd) : M Int := do
  let name ← onNet fun n => (n.nextMsgb, { n with nextMsgb := n.nextMsgb + 1 })
  let rc ← sccpLbSapUpPrim L io ⟨name, prim.l2⟩ prim
  msgbFree name
  return rc

inductive Event where
  | scu (prim : ScuInd)
  | locReqTimer (req : ReqPtr)
  | lbPeerTimer (peer : PeerPtr)
  | vty (cmd : VtyCmd)

/-- A timer expires only while it is scheduled. -/
def timerRunning {σ : Type} (fi : FsmRef World σ) (w : World) : Bool :=
  match fi.get w with
  | some inst => inst.timer
  | none => false

def handle : Event → M Unit
  | .scu prim => do
      let _ ← sccpLbSapUp L io prim
      return
  | .locReqTimer r => do
      Prog.ifTrue (← Prog.read (timerRunning (smlcLocReqFi r))) (smlcLocReqTimeout io r)
  | .lbPeerTimer p => do
      Prog.ifTrue (← Prog.read (timerRunning (lbPeerFi p))) (lbPeerTimeout p)
  | .vty cmd => Prog.modify fun w => { w with
      cellLocations := (vtyCommand L w.cellLocations cmd).2 }

/-- `osmo_select_main_ctx` frees the instances that were terminated while it ran. -/
@[simps] def World.select (w : World) : World :=
  { w with locReqs := w.locReqs.filter fun q => !q.fi.terminating }

/-- An event, and what libosmocore and the SCCP layer answer while it is handled. -/
structure Input where
  ev : Event
  io : Io

def step (w : World) (i : Input) : Except Crash World :=
  match handle L i.io i.ev w with
  | .ok (_,w') => .ok w'.select
  | .error e => .error e

/-- The states that the process can be in between two events. -/
def ReachableWorld (w : World) : Prop := ∃ scu, Reachable (step L) (World.init scu) w

end OsmoSmlc
