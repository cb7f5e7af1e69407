import Mathlib.Logic.Relation
import OsmoSmlc.Service.PeerMoves

/-! The network side moves in small steps: a message is encoded and handed down, a request is
counted, anything else is only recorded. What each of these steps keeps is kept by every
event. -/
namespace OsmoSmlc
open Osmo

/-- The acts that no counter and no buffer goes with. -/
def Act.still : Act → Bool
  | .bssapLeEnc _ _ | .sapDown _ _ _ | .locReqRx _ _ => false
  | _ => true

def ScuReq.pdu : ScuReq → BssapLePdu
  | .nConnect _ _ pdu | .nData _ pdu | .nUnitdata _ pdu => pdu

namespace Net

/-- A new buffer with a message is shown to some and handed down. -/
def sendDown (io : Io) (req : ScuReq) (acts : List Act) (n : Net) : Net :=
  let n' := (n.bssapLeEnc io req.pdu).2
  (({ n' with log := n'.log ++ acts } : Net).sccpLbSapDown io req n.nextMsgb).2

inductive Step (io : Io) : Net → Net → Prop
  | emit (n : Net) {a : Act} (ha : a.still = true) : Step io n (n.emit a)
  | takeMsgb (n : Net) : Step io n n.takeMsgb
  | request (n : Net) (c : ConnPtr) (st : Option LbPeerState) :
      Step io n (n.emit (.locReqRx c st)).countRequest
  | unsent (n : Net) {pdu : BssapLePdu} (henc : io.bssapLeEnc pdu = false) :
      Step io n (n.bssapLeEnc io pdu).2
  | sent (n : Net) {req : ScuReq} {acts : List Act} (henc : io.bssapLeEnc req.pdu = true)
      (hacts : ∀ a ∈ acts, a.still = true) : Step io n (n.sendDown io req acts)

/-- Any number of steps. -/
abbrev Path (io : Io) : Net → Net → Prop := Relation.ReflTransGen (Step io)

variable {L : Libosmo} {io : Io} {n n' n'' : Net} {s : Session} {a : Act}

theorem Path.trans (h : Path io n n') (h' : Path io n' n'') : Path io n n'' :=
  Relation.ReflTransGen.trans h h'

theorem Path.emit (h : Path io n n') (ha : a.still = true) : Path io n (n'.emit a) :=
  h.tail (.emit n' ha)

/-- The invariant rule for what an event does to the network side. -/
theorem Path.invariant {I : Net → Prop} (h : Path io n n')
    (hstep : ∀ n n', Step io n n' → I n → I n') (h0 : I n) : I n' := by
  induction h with
  | refl => exact h0
  | tail _ hs ih => exact hstep _ _ hs ih

theorem sendCo_path {pdu : BssmapLePdu} : Path io n (n.sendCo io s pdu).2 := by
  cases henc : io.bssapLeEnc (.bssmapLe pdu) with
  | false =>
    have hs : (n.sendCo io s pdu).2 = (n.bssapLeEnc io (.bssmapLe pdu)).2 := by
      simp [sendCo, bssapLeEnc, henc]
    rw [hs]
    exact .single (.unsent n henc)
  | true =>
    let acts : List Act := [.peerDispatch s.peer .ready .msgDownCo,
      .msgDownCo s.conn (some s.req) (.bssmapLe pdu)]
    have hs : (n.sendCo io s pdu).2
        = (n.sendDown io (.nData s.connId (.bssmapLe pdu)) acts).emit (.msgbFree n.nextMsgb) := by
      simp [sendCo, sendDown, bssapLeEnc, henc, ScuReq.pdu, Net.emit, acts]
    have hacts : ∀ a ∈ acts, a.still = true := by
      simp [acts, Act.still]
    rw [hs]
    exact Path.emit (.single (.sent n henc hacts)) rfl

theorem failed_path {cause : LcsCause} : Path io n (n.failed io s cause) := sendCo_path

theorem gotTa_path {cells : CellStore} {k : CellId} {ta : UInt8} :
    Path io n (n.gotTa L io cells s k ta) := by
  unfold gotTa
  cases estimate L cells k ta with
  | none => exact failed_path
  | some raw =>
    have hsend : Path io n (n.sendCo io s (.performLocResp ⟨some raw, none⟩)).2 := sendCo_path
    dsimp only
    split
    · exact hsend.trans failed_path
    · exact hsend

theorem answer_path {cells : CellStore} {k : Ending} : Path io n (n.answer L io cells s k) := by
  cases k with
  | locAbort => exact .single (.emit n rfl)
  | ta cellId ta => exact gotTa_path
  | failure cause => exact failed_path

theorem ended_path : Path io n (n.ended s) :=
  ((Path.emit .refl rfl).emit rfl).emit rfl

theorem discardAll_path {p : PeerPtr} (ss : List Session) :
    Path io n (ss.foldl (Net.discarded p) n) := by
  induction ss generalizing n with
  | nil => exact .refl
  | cons s ss ih =>
    have hs : Path io n (n.discarded p s) := ((Path.emit .refl rfl).emit rfl).emit rfl
    exact hs.trans ih

theorem sendReset_path {addr : SccpAddr} : Path io n (n.sendReset io addr).2 := by
  cases henc : io.bssapLeEnc (.bssmapLe .reset) with
  | false =>
    have hs : (n.sendReset io addr).2 = (n.bssapLeEnc io (.bssmapLe .reset)).2 := by
      simp [sendReset, bssapLeEnc, henc]
    rw [hs]
    exact .single (.unsent n henc)
  | true =>
    have hs : (n.sendReset io addr).2
        = (n.sendDown io (.nUnitdata addr (.bssmapLe .reset)) []).emit (.msgbFree n.nextMsgb) := by
      simp [sendReset, sendDown, bssapLeEnc, henc, ScuReq.pdu, Net.emit]
    rw [hs]
    exact Path.emit (.single (.sent n henc (by simp))) rfl

/-- Whichever buffer is freed in the end. -/
theorem sendResetAck_path {addr : SccpAddr} {rx : MsgbPtr} :
    Path io n (n.sendResetAck io addr rx).2 := by
  cases henc : io.bssapLeEnc (.bssmapLe .resetAck) with
  | false =>
    have hs : (n.sendResetAck io addr rx).2 = (n.bssapLeEnc io (.bssmapLe .resetAck)).2 := by
      simp [sendResetAck, bssapLeEnc, henc]
    rw [hs]
    exact .single (.unsent n henc)
  | true =>
    have hsent : Path io n (n.sendDown io (.nUnitdata addr (.bssmapLe .resetAck)) []) :=
      .single (.sent n henc (by simp))
    have hs : ∃ msg, (n.sendResetAck io addr rx).2
        = (n.sendDown io (.nUnitdata addr (.bssmapLe .resetAck)) []).emit (.msgbFree msg) := by
      simp only [sendResetAck, sendDown, bssapLeEnc, henc, ScuReq.pdu, if_true, Net.emit,
        List.append_nil]
      split
      · exact ⟨rx, rfl⟩
      · exact ⟨n.nextMsgb, rfl⟩
    obtain ⟨msg, hs⟩ := hs
    rw [hs]
    exact hsent.emit rfl

end Net

namespace Service

variable {L : Libosmo} {io : Io} {a a' : Service} {s : Session} {connId : ConnId} {m : Msg}
  {addr : SccpAddr} {p : PeerPtr} {x : LbPeer}

open Net (Path)

theorem emit_path {act : Act} (h : act.still = true) : Path io a.net (a.emit act).net :=
  Path.emit .refl h

theorem finish_path {k : Ending} : Path io a.net (a.finish L io s k).net :=
  Net.answer_path.trans Net.ended_path

theorem rx_path : Path io a.net (a.rx L io s m).net := by
  cases m with
  | ignored => exact .refl
  | request pdu => exact .single (.request _ _ _)
  | ending k => exact finish_path

theorem openSession_path {pdu : PerformLocReq} :
    Path io a.net (a.openSession L io p connId pdu).net := by
  let s := a.newSession L p connId pdu
  let n := (a.net.emit (.locReqRx a.next.conn (some .ready))).countRequest
  have hreq : Path io a.net n := .single (.request _ _ _)
  by_cases hta : ∃ ta, pdu.apdu = some (.taLayer3 ta)
  · obtain ⟨ta, hta⟩ := hta
    rw [openSession_answered hta]
    have hgot : Path io n (n.gotTa L io a.cellLocations s pdu.cellId ta) := Net.gotTa_path
    exact ((((hreq.trans hgot).emit rfl).emit rfl).emit rfl).emit rfl
  · rw [openSession_pending fun ta h => hta ⟨ta, h⟩]
    have hsend : Path io n (n.sendCo io s (.connOrientedInfo .taRequest)).2 := Net.sendCo_path
    exact (hreq.trans hsend).emit rfl

theorem connectTo_path (ho : a.connectTo L io x connId m = .ok a') : Path io a.net a'.net := by
  unfold connectTo at ho
  split at ho
  · cases ho
    exact Net.sendReset_path
  · cases ho
    exact (emit_path rfl).trans Net.sendReset_path
  · cases m with
    | ignored =>
      cases ho
      exact (Path.emit .refl rfl).emit rfl
    | request pdu =>
      cases ho
      exact openSession_path
    | ending k => cases ho
  · cases ho
    exact .refl

theorem connect_path (ho : a.connect L io connId addr m = .ok a') : Path io a.net a'.net := by
  unfold connect at ho
  split at ho
  · cases ho
    exact emit_path rfl
  · let x := (a.peer L addr).1
    let b := (a.peer L addr).2.emit (.peerDispatch x.ptr x.fi.state .msgUpCoInitial)
    have hup : Path io (a.peer L addr).2.net b.net := emit_path rfl
    rw [peer_net] at hup
    exact hup.trans (connectTo_path ho)

theorem data_path : Path io a.net (a.data L io connId m).net := by
  unfold data
  split
  · exact (emit_path rfl).trans rx_path
  · exact .refl

theorem unitdata_path {l2 : List UInt8} {msg : MsgbPtr} :
    Path io a.net (a.unitdata L io addr l2 msg).net := by
  let x := (a.peer L addr).1
  let b := (a.peer L addr).2.emit (.peerDispatch x.ptr x.fi.state .msgUpCl)
  have hup : Path io a.net b.net := by
    rw [← peer_net L a addr]
    exact emit_path rfl
  unfold unitdata
  cases L.bssmapLeMsgt l2 with
  | reset =>
    let c := b.emit (.peerDispatch x.ptr x.fi.state .rxReset)
    have hdis : Path io c.net (c.discardAll x.ptr).net := Net.discardAll_path _
    exact ((hup.emit rfl).trans hdis).trans Net.sendResetAck_path
  | resetAck =>
    dsimp only
    split
    · exact hup.emit rfl
    · exact hup.emit rfl
  | other msgt => exact hup

theorem rxPrim_path {msg : MsgbPtr} {prim : ScuInd} (ho : a.rxPrim L io msg prim = .ok a') :
    Path io a.net a'.net := by
  cases prim with
  | nConnect connId addr l2 =>
    simp only [rxPrim] at ho
    split at ho
    · cases ho
      exact .refl
    · exact (emit_path rfl).trans (connect_path ho)
  | nData connId l2 =>
    cases ho
    exact data_path
  | nDisconnect connId l2 =>
    cases ho
    by_cases hl : l2.length ≠ 0
    · rw [if_pos hl]
      exact data_path.emit rfl
    · rw [if_neg hl]
      exact emit_path rfl
  | nUnitdata addr l2 =>
    cases ho
    exact unitdata_path
  | unsupported l2 =>
    cases ho
    exact .refl

theorem step_path {i : Input} (ho : a.step L i = .ok a') : Path i.io a.net a'.net := by
  obtain ⟨ev, io⟩ := i
  cases ev with
  | scu prim =>
    simp only [step, handle] at ho
    split at ho
    · rename_i c hc
      cases ho
      have htake : Path io a.net a.net.takeMsgb := .single (.takeMsgb _)
      exact (htake.trans (rxPrim_path hc)).emit rfl
    · cases ho
  | locReqTimer r =>
    cases ho
    show Path io a.net (a.locReqTimeout L io r).net
    unfold locReqTimeout
    split
    · exact finish_path
    · exact .refl
  | lbPeerTimer p =>
    cases ho
    show Path io a.net (a.lbPeerTimeout p).net
    unfold lbPeerTimeout
    split
    · split
      · exact .refl
      · exact .refl
    · exact .refl
  | vty cmd =>
    cases ho
    exact .refl

/-- An invariant of the steps of the network side holds in every state reached. -/
theorem run_net {I : Net → Prop} {is : List Input} (hr : run (step L) a is = .ok a')
    (hstep : ∀ io n n', Net.Step io n n' → I n → I n') (h0 : I a.net) : I a'.net := by
  refine run_invariant (I := fun b : Service => I b.net) ?_ h0 hr
  intro b i b' hb ho
  exact (step_path ho).invariant (hstep i.io) hb

end Service
end OsmoSmlc
