import OsmoSmlc.Core.LockStep
import OsmoSmlc.Service.Moves
import OsmoSmlc.Service.PeerMoves

/-! What the service decides for itself: which connections it confirms, accepts and ends. It
depends neither on the cells nor on what becomes of the messages of a connection. -/
namespace OsmoSmlc
open Osmo

/-- The acts by which connections and requests are taken up and ended. -/
def Act.control : Act → Bool
  | .bssapLeEnc _ _ | .sapDown _ _ _ | .msgbFree _ | .msgDownCo _ _ _ => false
  | .peerDispatch _ _ ev => ev ≠ .msgDownCo
  | _ => true

/-- The two accept the messages of the RESET procedure alike. -/
structure Io.SameResets (io io' : Io) : Prop where
  reset : ∀ scu addr, Effect.accepted io scu addr .reset = Effect.accepted io' scu addr .reset
  resetAck : ∀ scu addr,
    Effect.accepted io scu addr .resetAck = Effect.accepted io' scu addr .resetAck

namespace Effect

variable {L : Libosmo} {io : Io} {scu : Bool} {cells : CellStore} {s : Session} {a : Act}
  {e f : Effect}

def control (e : Effect) : List Act := e.acts.filter Act.control

@[simp] theorem control_nil : nil.control = [] := rfl
@[simp] theorem control_msgb : msgb.control = [] := rfl
@[simp] theorem control_append : (e ++ f).control = e.control ++ f.control := List.filter_append ..

/-- Messages of a session are no decisions. -/
theorem control_answers (h : ∀ a ∈ e.acts, a.Answers s ∧ ∀ r, a ≠ .locReqAbort r) :
    e.control = [] := by
  refine List.filter_eq_nil_iff.mpr fun a ha hc => ?_
  obtain ⟨hans, habort⟩ := h a ha
  cases a with
  | peerDispatch p st ev =>
    obtain ⟨-, -, rfl⟩ := hans
    exact absurd hc (by simp [Act.control])
  | locReqAbort r => exact habort r rfl
  | sapDown req msg rc => exact absurd hc (by simp [Act.control])
  | msgDownCo c r pdu => exact absurd hc (by simp [Act.control])
  | _ => exact hans

theorem control_sendCo {pdu : BssmapLePdu} : (sendCo io scu s pdu).control = [] := by
  refine control_answers (s := s) fun a ha => ⟨sendCo_answers ha, ?_⟩
  rintro r rfl
  unfold sendCo at ha
  split at ha
  · simp only [acts_append, acts_enc, acts_msgb, acts_act, List.nil_append, List.mem_append,
      List.mem_singleton, reduceCtorEq, false_or] at ha
    unfold down at ha
    split at ha
    · simp at ha
    · cases ha
  · cases ha

theorem control_gotTa {k : CellId} {ta : UInt8} : (gotTa L io scu cells s k ta).control = [] := by
  unfold gotTa failed
  split
  · exact control_sendCo
  · split
    · exact control_sendCo
    · rw [control_append, control_sendCo]
      rfl

/-- Of an answer, only an abort is decided by the peer of the session. -/
theorem control_answer {k : Ending} : (answer L io scu cells s k).control
    = if k = .locAbort then [.locReqAbort s.req] else [] := by
  cases k with
  | locAbort => rfl
  | ta cellId ta => exact control_gotTa
  | failure cause => exact control_sendCo

theorem control_sendCl {addr : SccpAddr} {pdu : BssmapLePdu} :
    (sendCl io scu addr pdu).control = [] := by
  refine List.filter_eq_nil_iff.mpr fun a ha => ?_
  obtain ⟨rc, rfl⟩ := sendCl_acts ha
  exact Bool.false_ne_true

end Effect

namespace Service

/-- The service with other cells and another network side. -/
def overlay (c : CellStore) (n : Net) (a : Service) : Service :=
  { a with cellLocations := c, net := n }

/-- The services agree on everything but the cells and the network side. -/
def Agrees (a b : Service) : Prop := ∃ c n, b = a.overlay c n

variable {L : Libosmo} {io io' : Io} {a b : Service} {s : Session} {connId : ConnId} {m : Msg}
  {addr : SccpAddr} {p : PeerPtr} {x : LbPeer} {c : CellStore} {n n' : Net}

theorem Agrees.sessions (h : Agrees a b) : b.sessions = a.sessions := by
  obtain ⟨c, n, rfl⟩ := h
  rfl

theorem Agrees.setNet (h : Agrees a b) : Agrees (a.setNet n) (b.setNet n') := by
  obtain ⟨c, k, rfl⟩ := h
  exact ⟨c, n', rfl⟩

theorem Agrees.emit {act act' : Act} (h : Agrees a b) : Agrees (a.emit act) (b.emit act') :=
  h.setNet

section Parts

variable {pdu : PerformLocReq}

theorem bindRequest_overlay : (a.overlay c n).bindRequest L pdu
    = ((a.bindRequest L pdu).1, (a.bindRequest L pdu).2.overlay c n) := by
  have hsubscrs : (a.overlay c n).subscrs = a.subscrs := rfl
  by_cases ht : pdu.imsi.type = .imsi
  · rw [bindRequest_imsi ht, bindRequest_imsi ht]
    unfold bind
    rw [hsubscrs]
    cases a.subscrs.find? fun x => L.mobileIdentityCmp x.imsi pdu.imsi = 0 with
    | some x => rfl
    | none => rfl
  · rw [bindRequest_other ht, bindRequest_other ht]

theorem newSession_overlay : (a.overlay c n).newSession L p connId pdu = a.newSession L p connId pdu := by
  unfold newSession
  rw [bindRequest_overlay]
  rfl

theorem withSession_overlay : (a.overlay c n).withSession L p connId pdu n'
    = (a.withSession L p connId pdu n').overlay c n' := by
  unfold withSession
  rw [bindRequest_overlay, newSession_overlay]
  rfl

theorem peer_overlay : (a.overlay c n).peer L addr = ((a.peer L addr).1, (a.peer L addr).2.overlay c n) := by
  have hpeers : (a.overlay c n).lbPeers = a.lbPeers := rfl
  unfold peer
  rw [hpeers]
  cases a.lbPeers.find? fun x => L.sccpAddrRiCmp addr x.peerAddr = 0 with
  | some x => rfl
  | none => rfl

end Parts

theorem Agrees.finish (h : Agrees a b) {k : Ending} :
    Agrees (a.finish L io s k) (b.finish L io' s k) := by
  obtain ⟨c, n, rfl⟩ := h
  exact ⟨c, _, rfl⟩

theorem Agrees.rx (h : Agrees a b) : Agrees (a.rx L io s m) (b.rx L io' s m) := by
  cases m with
  | ignored => exact h
  | request pdu => exact h.setNet
  | ending k => exact h.finish

theorem Agrees.data (h : Agrees a b) : Agrees (a.data L io connId m) (b.data L io' connId m) := by
  unfold Service.data
  rw [h.sessions]
  cases a.sessions.find? fun s => s.connId = connId with
  | none => exact h
  | some s => exact h.emit.rx

theorem Agrees.openSession (h : Agrees a b) {pdu : PerformLocReq} :
    Agrees (a.openSession L io p connId pdu) (b.openSession L io' p connId pdu) := by
  obtain ⟨c, n, rfl⟩ := h
  by_cases hta : ∃ ta, pdu.apdu = some (.taLayer3 ta)
  · obtain ⟨ta, hta⟩ := hta
    rw [openSession_answered hta, openSession_answered hta]
    dsimp only
    rw [withSession_overlay, newSession_overlay]
    exact ⟨c, _, rfl⟩
  · have hta' : ∀ ta, pdu.apdu ≠ some (.taLayer3 ta) := fun ta h => hta ⟨ta, h⟩
    rw [openSession_pending hta', openSession_pending hta']
    dsimp only
    rw [withSession_overlay]
    exact ⟨c, _, rfl⟩

theorem Agrees.setPeer {st : LbPeerState} (h : Agrees a b) :
    Agrees (a.setPeer p st) (b.setPeer p st) := by
  obtain ⟨c, n, rfl⟩ := h
  exact ⟨c, n, rfl⟩

theorem Agrees.discardAll (h : Agrees a b) : Agrees (a.discardAll p) (b.discardAll p) := by
  obtain ⟨c, n, rfl⟩ := h
  exact ⟨c, _, rfl⟩

/-- Whether the SCCP layer accepts the RESET decides on the state of the peer. -/
theorem Agrees.reset (h : Agrees a b) (hscu : a.net.scu = b.net.scu) (hio : io.SameResets io') :
    Agrees (a.reset io x) (b.reset io' x) := by
  have hst : (a.net.sendReset io x.peerAddr).1 = (b.net.sendReset io' x.peerAddr).1 := by
    rw [Net.sendReset_does.2, Net.sendReset_does.2, hscu, hio.reset]
  unfold Service.reset
  rw [hst]
  exact h.setPeer.setNet

theorem Agrees.ackReset {msg msg' : MsgbPtr} (h : Agrees a b) (hscu : a.net.scu = b.net.scu)
    (hio : io.SameResets io') : Agrees (a.ackReset io x msg) (b.ackReset io' x msg') := by
  have hst : (a.net.sendResetAck io x.peerAddr msg).1
      = (b.net.sendResetAck io' x.peerAddr msg').1 := by
    rw [Net.sendResetAck_does.2, Net.sendResetAck_does.2, hscu, hio.resetAck]
  unfold Service.ackReset
  rw [hst]
  exact h.setPeer.setNet

theorem Agrees.connectTo (h : Agrees a b) (hscu : a.net.scu = b.net.scu)
    (hio : io.SameResets io') : SameOutcome Agrees (a.connectTo L io x connId m)
      (b.connectTo L io' x connId m) := by
  unfold Service.connectTo
  cases x.fi.state with
  | waitRxReset => exact .ok (h.reset hscu hio)
  | waitRxResetAck => exact .ok (h.emit.reset hscu hio)
  | discarding => exact .ok h
  | ready =>
    cases m with
    | ignored =>
      obtain ⟨c, n, rfl⟩ := h
      exact .ok ⟨c, _, rfl⟩
    | request pdu => exact .ok h.openSession
    | ending k => exact .error _

theorem Agrees.peer (h : Agrees a b) (L : Libosmo) (addr : SccpAddr) :
    (b.peer L addr).1 = (a.peer L addr).1 ∧ Agrees (a.peer L addr).2 (b.peer L addr).2 := by
  obtain ⟨c, n, rfl⟩ := h
  rw [peer_overlay]
  exact ⟨rfl, c, n, rfl⟩

theorem Agrees.connect (h : Agrees a b) (hscu : a.net.scu = b.net.scu)
    (hio : io.SameResets io') : SameOutcome Agrees (a.connect L io connId addr m)
      (b.connect L io' connId addr m) := by
  obtain ⟨hx, hp⟩ := h.peer L addr
  unfold Service.connect
  rw [h.sessions]
  split
  · exact .ok h.emit
  · dsimp only
    rw [hx]
    refine hp.emit.connectTo ?_ hio
    show (a.peer L addr).2.net.scu = (b.peer L addr).2.net.scu
    rw [peer_net, peer_net, hscu]

theorem Agrees.unitdata {l2 : List UInt8} {msg msg' : MsgbPtr} (h : Agrees a b)
    (hscu : a.net.scu = b.net.scu) (hio : io.SameResets io') :
    Agrees (a.unitdata L io addr l2 msg) (b.unitdata L io' addr l2 msg') := by
  obtain ⟨hx, hp⟩ := h.peer L addr
  unfold Service.unitdata
  rw [hx]
  cases L.bssmapLeMsgt l2 with
  | reset =>
    refine hp.emit.emit.discardAll.ackReset ?_ hio
    rw [discardAll_scu, discardAll_scu]
    show (a.peer L addr).2.net.scu = (b.peer L addr).2.net.scu
    rw [peer_net, peer_net, hscu]
  | resetAck =>
    dsimp only
    split
    · exact hp.emit.emit.setPeer
    · exact hp.emit.emit
  | other msgt => exact hp.emit

theorem Agrees.rxPrim {msg msg' : MsgbPtr} {prim : ScuInd} (h : Agrees a b)
    (hscu : a.net.scu = b.net.scu) (hio : io.SameResets io') :
    SameOutcome Agrees (a.rxPrim L io msg prim) (b.rxPrim L io' msg' prim) := by
  cases prim with
  | nConnect connId addr l2 =>
    unfold Service.rxPrim
    dsimp only
    split
    · exact .ok h
    · exact h.emit.connect hscu hio
  | nData connId l2 => exact .ok h.data
  | nDisconnect connId l2 =>
    unfold Service.rxPrim
    dsimp only
    split
    · exact .ok h.data.emit
    · exact .ok h.emit
  | nUnitdata addr l2 => exact .ok (h.unitdata hscu hio)
  | unsupported l2 => exact .ok h

theorem Agrees.locReqTimeout {r : ReqPtr} (h : Agrees a b) :
    Agrees (a.locReqTimeout L io r) (b.locReqTimeout L io' r) := by
  unfold Service.locReqTimeout
  rw [h.sessions]
  cases a.sessions.find? fun s => s.req = r with
  | none => exact h
  | some s => exact h.finish

theorem Agrees.lbPeerTimeout (h : Agrees a b) : Agrees (a.lbPeerTimeout p) (b.lbPeerTimeout p) := by
  have hp : b.lbPeers = a.lbPeers := by
    obtain ⟨c, n, rfl⟩ := h
    rfl
  unfold Service.lbPeerTimeout
  rw [hp]
  cases KeyedList.lookup LbPeer.ptr a.lbPeers p with
  | none => exact h
  | some x =>
    dsimp only
    split
    · exact h.setPeer
    · exact h

/-- The same event leads to services that agree again, or is fatal to both. -/
theorem Agrees.handle {ev : Event} (h : Agrees a b) (hscu : a.net.scu = b.net.scu)
    (hio : io.SameResets io') :
    SameOutcome Agrees (a.handle L io ev) (b.handle L io' ev) := by
  cases ev with
  | scu prim =>
    have ht : (a.setNet a.net.takeMsgb).net.scu = (b.setNet b.net.takeMsgb).net.scu := hscu
    have hrx : SameOutcome Agrees ((a.setNet a.net.takeMsgb).rxPrim L io a.net.nextMsgb prim)
        ((b.setNet b.net.takeMsgb).rxPrim L io' b.net.nextMsgb prim) := h.setNet.rxPrim ht hio
    unfold Service.handle
    dsimp only
    generalize (a.setNet a.net.takeMsgb).rxPrim L io a.net.nextMsgb prim = y at hrx
    generalize (b.setNet b.net.takeMsgb).rxPrim L io' b.net.nextMsgb prim = z at hrx
    cases hrx with
    | ok hab => exact .ok hab.emit
    | error e => exact .error e
  | locReqTimer r => exact .ok h.locReqTimeout
  | lbPeerTimer p => exact .ok h.lbPeerTimeout
  | vty cmd =>
    obtain ⟨c, n, rfl⟩ := h
    exact .ok ⟨_, n, rfl⟩

/-! The decisions that an event causes are the same, too. -/

theorem finishEffect_control {k : Ending} : (a.finishEffect L io s k).control
    = (if k = .locAbort then [.locReqAbort s.req] else []) ++ (Effect.ended s).control := by
  rw [finishEffect, Effect.control_append, Effect.control_answer]

theorem rxEffect_control : (a.rxEffect L io s m).control = (b.rxEffect L io' s m).control := by
  cases m with
  | ignored => rfl
  | request pdu => rfl
  | ending k => rw [rxEffect, rxEffect, finishEffect_control, finishEffect_control]

theorem Agrees.dataEffect (h : Agrees a b) :
    (a.dataEffect L io connId m).control = (b.dataEffect L io' connId m).control := by
  unfold Service.dataEffect
  rw [h.sessions]
  cases a.sessions.find? fun s => s.connId = connId with
  | none => rfl
  | some s =>
    dsimp only
    rw [Effect.control_append, Effect.control_append, rxEffect_control]

theorem Agrees.openSessionEffect (h : Agrees a b) {pdu : PerformLocReq} :
    (a.openSessionEffect L io p connId pdu).control
      = (b.openSessionEffect L io' p connId pdu).control := by
  obtain ⟨c, n, rfl⟩ := h
  by_cases hta : ∃ ta, pdu.apdu = some (.taLayer3 ta)
  · obtain ⟨ta, hta⟩ := hta
    rw [openSessionEffect_answered hta, openSessionEffect_answered hta]
    simp only [Effect.control_append, Effect.control_gotTa]
    rfl
  · have hta' : ∀ ta, pdu.apdu ≠ some (.taLayer3 ta) := fun ta h => hta ⟨ta, h⟩
    rw [openSessionEffect_pending hta', openSessionEffect_pending hta']
    simp only [Effect.control_append, Effect.control_sendCo]
    rfl

theorem Agrees.connectToEffect (h : Agrees a b) :
    (a.connectToEffect L io x connId m).control
      = (b.connectToEffect L io' x connId m).control := by
  unfold Service.connectToEffect
  cases x.fi.state with
  | waitRxReset =>
    dsimp only
    rw [Effect.control_sendCl, Effect.control_sendCl]
  | waitRxResetAck =>
    simp only [Effect.control_append, Effect.control_sendCl]
  | discarding => rfl
  | ready =>
    cases m with
    | ignored =>
      obtain ⟨c, n, rfl⟩ := h
      rfl
    | request pdu => exact h.openSessionEffect
    | ending k => rfl

theorem Agrees.connectEffect (h : Agrees a b) :
    (a.connectEffect L io connId addr m).control
      = (b.connectEffect L io' connId addr m).control := by
  obtain ⟨hx, -⟩ := h.peer L addr
  unfold Service.connectEffect
  rw [h.sessions]
  split
  · rfl
  · dsimp only
    rw [hx, Effect.control_append, Effect.control_append, h.connectToEffect]

theorem Agrees.unitdataEffect {l2 : List UInt8} (h : Agrees a b) :
    (a.unitdataEffect L io addr l2).control = (b.unitdataEffect L io' addr l2).control := by
  obtain ⟨hx, -⟩ := h.peer L addr
  unfold Service.unitdataEffect
  rw [hx, h.sessions]
  cases L.bssmapLeMsgt l2 with
  | reset =>
    simp only [Effect.control_append, Effect.control_sendCl]
  | resetAck => rfl
  | other msgt => rfl

theorem Agrees.effect {i j : Input} (h : Agrees a b) (hev : i.ev = j.ev) :
    (a.effect L i).control = (b.effect L j).control := by
  obtain ⟨ev, io⟩ := i
  obtain ⟨ev', io'⟩ := j
  cases hev
  cases ev with
  | scu prim =>
    show (Effect.msgb ++ a.rxPrimEffect L io prim).control
      = (Effect.msgb ++ b.rxPrimEffect L io' prim).control
    rw [Effect.control_append, Effect.control_append]
    congr 1
    cases prim with
    | nConnect connId addr l2 =>
      unfold Service.rxPrimEffect
      dsimp only
      split
      · rfl
      · rw [Effect.control_append, Effect.control_append, h.connectEffect]
    | nData connId l2 => exact h.dataEffect
    | nDisconnect connId l2 =>
      unfold Service.rxPrimEffect
      dsimp only
      rw [Effect.control_append, Effect.control_append]
      split
      · rw [h.dataEffect]
      · rfl
    | nUnitdata addr l2 => exact h.unitdataEffect
    | unsupported l2 => rfl
  | locReqTimer r =>
    show (a.locReqTimeoutEffect L io r).control = (b.locReqTimeoutEffect L io' r).control
    unfold Service.locReqTimeoutEffect
    rw [h.sessions]
    cases a.sessions.find? fun s => s.req = r with
    | none => rfl
    | some s =>
      dsimp only
      rw [finishEffect_control, finishEffect_control]
  | lbPeerTimer p => rfl
  | vty cmd => rfl

end Service
end OsmoSmlc
