import OsmoSmlc.Service.Effect

/-! The record that a step of the process adds to its log, read off the service: every
event has an effect of its own, and the log grows by what the effect shows. -/
namespace OsmoSmlc
open Osmo

namespace Effect

/-- A Perform Location Request comes in on a connection. -/
def request (c : ConnPtr) : Effect := ⟨[.locReqRx c (some .ready)], ⟨1, 0, 0, 0⟩, 0, []⟩

@[simp] theorem acts_request {c : ConnPtr} : (request c).acts = [.locReqRx c (some .ready)] := rfl

end Effect

namespace Service

variable (L : Libosmo) (io : Io)

def finishEffect (s : Session) (e : Ending) (a : Service) : Effect :=
  .answer L io a.net.scu a.cellLocations s e ++ .ended s

def rxEffect (s : Session) (a : Service) : Msg → Effect
  | .ignored => .nil
  | .request _ => .request s.conn
  | .ending e => a.finishEffect L io s e

/-- A request that already has the timing advance is answered before it is accepted. The
binding of the session does not show. -/
def openSessionEffect (p : PeerPtr) (connId : ConnId) (pdu : PerformLocReq) (a : Service) :
    Effect :=
  let s : Session := ⟨a.next.conn, connId, p, none, a.next.req, pdu⟩
  match pdu.apdu with
  | some (.taLayer3 ta) =>
      .request s.conn ++ .gotTa L io a.net.scu a.cellLocations s pdu.cellId ta
        ++ .act (.locReqCleanup s.req) ++ .act (.locReqAccepted s.req s.conn pdu)
        ++ .act (.disconn connId) ++ .act (.connFree s.conn)
  | _ =>
      .request s.conn ++ .sendCo io a.net.scu s (.connOrientedInfo .taRequest)
        ++ .act (.locReqAccepted s.req s.conn pdu)

def openConnEffect (p : PeerPtr) (connId : ConnId) (a : Service) : Msg → Effect
  | .ignored => .act (.disconn connId) ++ .act (.connFree a.next.conn)
  | .request pdu => a.openSessionEffect L io p connId pdu
  | .ending _ => .nil

def connectToEffect (x : LbPeer) (connId : ConnId) (m : Msg) (a : Service) : Effect :=
  match x.fi.state with
  | .waitRxReset => .sendCl io a.net.scu x.peerAddr .reset
  | .waitRxResetAck => .act (.disconn connId) ++ .sendCl io a.net.scu x.peerAddr .reset
  | .ready => a.openConnEffect L io x.ptr connId m
  | .discarding => .nil

def connectEffect (connId : ConnId) (addr : SccpAddr) (m : Msg) (a : Service) : Effect :=
  if a.sessions.any fun s => s.connId = connId then .act (.disconn connId)
  else
    let x := (a.peer L addr).1
    .act (.peerDispatch x.ptr x.fi.state .msgUpCoInitial)
      ++ a.connectToEffect L io x connId m

def dataEffect (connId : ConnId) (m : Msg) (a : Service) : Effect :=
  match a.sessions.find? fun s => s.connId = connId with
  | some s => .act (.peerDispatch s.peer .ready .msgUpCo) ++ a.rxEffect L io s m
  | none => .nil

def unitdataEffect (addr : SccpAddr) (l2 : List UInt8) (a : Service) : Effect :=
  let x := (a.peer L addr).1
  let up : Effect := .act (.peerDispatch x.ptr x.fi.state .msgUpCl)
  match L.bssmapLeMsgt l2 with
  | .reset =>
      up ++ .act (.peerDispatch x.ptr x.fi.state .rxReset)
        ++ .discardAll x.ptr (a.sessions.filter fun s => s.peer = x.ptr)
        ++ .sendCl io a.net.scu x.peerAddr .resetAck
  | .resetAck => up ++ .act (.peerDispatch x.ptr x.fi.state .rxResetAck)
  | .other _ => up

def rxPrimEffect (a : Service) : ScuInd → Effect
  | .nConnect connId addr l2 =>
      if l2.length = 0 then .nil
      else .act (.connResp connId) ++ a.connectEffect L io connId addr (L.msg l2)
  | .nData connId l2 => a.dataEffect L io connId (L.msg l2)
  | .nDisconnect connId l2 =>
      (if l2.length ≠ 0 then a.dataEffect L io connId (L.msg l2) else .nil)
        ++ .act (.disconn connId)
  | .nUnitdata addr l2 => a.unitdataEffect L io addr l2
  | .unsupported _ => .nil

def locReqTimeoutEffect (r : ReqPtr) (a : Service) : Effect :=
  match a.sessions.find? fun s => s.req = r with
  | some s => a.finishEffect L io s (.failure .systemFailure)
  | none => .nil

def effect (a : Service) (i : Input) : Effect :=
  match i.ev with
  | .scu prim => .msgb ++ a.rxPrimEffect L i.io prim
  | .locReqTimer r => a.locReqTimeoutEffect L i.io r
  | .lbPeerTimer _ => .nil
  | .vty _ => .nil

section Does

variable {L : Libosmo} {io : Io} {a a' : Service} {s : Session} {connId : ConnId} {m : Msg}
  {addr : SccpAddr} {p : PeerPtr} {x : LbPeer}

theorem finish_does {e : Ending} : a.net.Does (a.finishEffect L io s e) (a.finish L io s e).net :=
  Net.answer_does.trans Net.ended_does

theorem request_does {n : Net} {c : ConnPtr} :
    n.Does (.request c) (n.emit (.locReqRx c (some .ready))).countRequest :=
  ⟨⟨[_], rfl, rfl⟩, rfl, rfl, rfl, ⟨[_], rfl, rfl⟩⟩

theorem rx_does : a.net.Does (a.rxEffect L io s m) (a.rx L io s m).net := by
  cases m with
  | ignored => exact Net.Does.refl
  | request pdu => exact request_does
  | ending e => exact finish_does

theorem openSession_answered {pdu : PerformLocReq} {ta : UInt8}
    (h : pdu.apdu = some (.taLayer3 ta)) :
    a.openSession L io p connId pdu =
      let s := a.newSession L p connId pdu
      let n := (a.net.emit (.locReqRx s.conn (some .ready))).countRequest
      let n := (n.gotTa L io a.cellLocations s pdu.cellId ta).emit (.locReqCleanup s.req)
      let n := (n.emit (.locReqAccepted s.req s.conn pdu)).emit (.disconn connId)
      (a.withSession L p connId pdu n).drop s (n.emit (.connFree s.conn)) := by
  simp only [openSession, h]

theorem openSession_pending {pdu : PerformLocReq} (h : ∀ ta, pdu.apdu ≠ some (.taLayer3 ta)) :
    a.openSession L io p connId pdu =
      let s := a.newSession L p connId pdu
      let n := (a.net.emit (.locReqRx s.conn (some .ready))).countRequest
      let n := (n.sendCo io s (.connOrientedInfo .taRequest)).2
      a.withSession L p connId pdu (n.emit (.locReqAccepted s.req s.conn pdu)) := by
  unfold openSession
  split
  · rename_i ta hta
    exact absurd hta (h ta)
  · rfl

theorem openSessionEffect_answered {pdu : PerformLocReq} {ta : UInt8}
    (h : pdu.apdu = some (.taLayer3 ta)) :
    a.openSessionEffect L io p connId pdu =
      let s : Session := ⟨a.next.conn, connId, p, none, a.next.req, pdu⟩
      .request s.conn ++ .gotTa L io a.net.scu a.cellLocations s pdu.cellId ta
        ++ .act (.locReqCleanup s.req) ++ .act (.locReqAccepted s.req s.conn pdu)
        ++ .act (.disconn connId) ++ .act (.connFree s.conn) := by
  simp only [openSessionEffect, h]

theorem openSessionEffect_pending {pdu : PerformLocReq}
    (h : ∀ ta, pdu.apdu ≠ some (.taLayer3 ta)) :
    a.openSessionEffect L io p connId pdu =
      let s : Session := ⟨a.next.conn, connId, p, none, a.next.req, pdu⟩
      .request s.conn ++ .sendCo io a.net.scu s (.connOrientedInfo .taRequest)
        ++ .act (.locReqAccepted s.req s.conn pdu) := by
  unfold openSessionEffect
  split
  · rename_i ta hta
    exact absurd hta (h ta)
  · rfl

theorem openSession_does {pdu : PerformLocReq} :
    a.net.Does (a.openSessionEffect L io p connId pdu) (a.openSession L io p connId pdu).net := by
  let s := a.newSession L p connId pdu
  let n1 := (a.net.emit (.locReqRx a.next.conn (some .ready))).countRequest
  have h1 : a.net.Does (.request a.next.conn) n1 := request_does
  by_cases hta : ∃ ta, pdu.apdu = some (.taLayer3 ta)
  · obtain ⟨ta, hta⟩ := hta
    rw [openSession_answered hta, openSessionEffect_answered hta]
    have h2 : n1.Does _ (n1.gotTa L io a.cellLocations s pdu.cellId ta) := Net.gotTa_does
    exact ((((h1.trans h2).emit (.locReqCleanup a.next.req) rfl).emit
      (.locReqAccepted a.next.req a.next.conn pdu) rfl).emit (.disconn connId) rfl).emit
      (.connFree a.next.conn) rfl
  · have hta' : ∀ ta, pdu.apdu ≠ some (.taLayer3 ta) := fun ta h => hta ⟨ta, h⟩
    rw [openSession_pending hta', openSessionEffect_pending hta']
    have h2 : n1.Does _ (n1.sendCo io s (.connOrientedInfo .taRequest)).2 := Net.sendCo_does
    exact (h1.trans h2).emit (.locReqAccepted a.next.req a.next.conn pdu) rfl

theorem openConn_does (ho : a.openConn L io p connId m = .ok a') :
    a.net.Does (a.openConnEffect L io p connId m) a'.net := by
  cases m with
  | ignored =>
    cases ho
    exact (Net.emit_does (.disconn connId) rfl).emit (.connFree a.next.conn) rfl
  | request pdu =>
    cases ho
    exact openSession_does
  | ending e => cases ho

theorem connectTo_does (ho : a.connectTo L io x connId m = .ok a') :
    a.net.Does (a.connectToEffect L io x connId m) a'.net := by
  unfold connectTo at ho
  unfold connectToEffect
  cases hst : x.fi.state with
  | waitRxReset =>
    rw [hst] at ho
    cases ho
    exact Net.sendReset_does.1
  | waitRxResetAck =>
    rw [hst] at ho
    cases ho
    exact (Net.emit_does (.disconn connId) rfl).trans Net.sendReset_does.1
  | ready =>
    rw [hst] at ho
    exact openConn_does ho
  | discarding =>
    rw [hst] at ho
    cases ho
    exact Net.Does.refl

theorem peer_net (L : Libosmo) (a : Service) (addr : SccpAddr) :
    (a.peer L addr).2.net = a.net := by rw [peer_frame]

theorem peer_sessions (L : Libosmo) (a : Service) (addr : SccpAddr) :
    (a.peer L addr).2.sessions = a.sessions := by rw [peer_frame]

theorem peer_setNet {n : Net} :
    (a.setNet n).peer L addr = ((a.peer L addr).1, (a.peer L addr).2.setNet n) := by
  have hpeers : (a.setNet n).lbPeers = a.lbPeers := rfl
  unfold peer
  rw [hpeers]
  cases a.lbPeers.find? fun x => L.sccpAddrRiCmp addr x.peerAddr = 0 with
  | some x => rfl
  | none => rfl

/-- What was recorded and counted before has no influence. -/
theorem connectEffect_setNet {n : Net} (h : n.scu = a.net.scu) :
    (a.setNet n).connectEffect L io connId addr m = a.connectEffect L io connId addr m := by
  obtain ⟨scu, ctrs, nextMsgb, log⟩ := n
  cases h
  unfold connectEffect
  rw [peer_setNet]
  rfl

theorem connectToEffect_setNet {n : Net} (h : n.scu = a.net.scu) :
    (a.setNet n).connectToEffect L io x connId m = a.connectToEffect L io x connId m := by
  obtain ⟨scu, ctrs, nextMsgb, log⟩ := n
  cases h
  rfl

theorem connectToEffect_peer :
    (a.peer L addr).2.connectToEffect L io x connId m = a.connectToEffect L io x connId m := by
  unfold peer
  split
  · rfl
  · rfl

theorem rxPrimEffect_setNet {n : Net} (h : n.scu = a.net.scu) {prim : ScuInd} :
    (a.setNet n).rxPrimEffect L io prim = a.rxPrimEffect L io prim := by
  cases prim with
  | nConnect connId addr l2 =>
    simp only [rxPrimEffect]
    rw [connectEffect_setNet h]
  | nUnitdata addr l2 =>
    obtain ⟨scu, ctrs, nextMsgb, log⟩ := n
    cases h
    simp only [rxPrimEffect, unitdataEffect]
    rw [peer_setNet]
    rfl
  | _ =>
    obtain ⟨scu, ctrs, nextMsgb, log⟩ := n
    cases h
    rfl

theorem connect_does (ho : a.connect L io connId addr m = .ok a') :
    a.net.Does (a.connectEffect L io connId addr m) a'.net := by
  unfold connect at ho
  unfold connectEffect
  split at ho
  · rename_i hany
    cases ho
    rw [if_pos hany]
    exact Net.emit_does _ rfl
  · rename_i hany
    let b := (a.peer L addr).2
    let x := (a.peer L addr).1
    have hb : b.net.Does (.act (.peerDispatch x.ptr x.fi.state .msgUpCoInitial))
        (b.emit (.peerDispatch x.ptr x.fi.state .msgUpCoInitial)).net := Net.emit_does _ rfl
    have hc : (b.emit (.peerDispatch x.ptr x.fi.state .msgUpCoInitial)).net.Does
        (b.connectToEffect L io x connId m) a'.net := connectTo_does ho
    rw [if_neg hany]
    rw [connectToEffect_peer] at hc
    rw [peer_net] at hb
    exact hb.trans hc

theorem data_some (h : a.sessions.find? (fun s => s.connId = connId) = some s) :
    a.data L io connId m = (a.emit (.peerDispatch s.peer .ready .msgUpCo)).rx L io s m ∧
    a.dataEffect L io connId m
      = .act (.peerDispatch s.peer .ready .msgUpCo) ++ a.rxEffect L io s m := by
  simp only [data, dataEffect, h, and_self]

theorem data_none (h : a.sessions.find? (fun s => s.connId = connId) = none) :
    a.data L io connId m = a ∧ a.dataEffect L io connId m = .nil := by
  simp only [data, dataEffect, h, and_self]

theorem data_does : a.net.Does (a.dataEffect L io connId m) (a.data L io connId m).net := by
  cases hs : a.sessions.find? fun s => s.connId = connId with
  | some s =>
    rw [(data_some hs).1, (data_some hs).2]
    let up : Act := .peerDispatch s.peer .ready .msgUpCo
    have hrx : (a.emit up).net.Does _ ((a.emit up).rx L io s m).net := rx_does
    exact (Net.emit_does up rfl).trans hrx
  | none =>
    rw [(data_none hs).1, (data_none hs).2]
    exact Net.Does.refl

theorem unitdata_does {l2 : List UInt8} {msg : MsgbPtr} :
    a.net.Does (a.unitdataEffect L io addr l2) (a.unitdata L io addr l2 msg).net := by
  unfold unitdataEffect unitdata
  rw [← peer_net L a addr, ← peer_sessions L a addr]
  let x := (a.peer L addr).1
  let st := x.fi.state
  have hup : (a.peer L addr).2.net.Does _ _ := Net.emit_does (.peerDispatch x.ptr st .msgUpCl) rfl
  cases L.bssmapLeMsgt l2 with
  | reset =>
    let b := ((a.peer L addr).2.emit (.peerDispatch x.ptr st .msgUpCl)).emit
      (.peerDispatch x.ptr st .rxReset)
    have hd : b.net.Does _ (b.discardAll x.ptr).net := Net.discardAll_does _
    have hs : (b.discardAll x.ptr).net.Does (.sendCl io b.net.scu x.peerAddr .resetAck)
        ((b.discardAll x.ptr).ackReset io x msg).net := hd.scu ▸ Net.sendResetAck_does.1
    exact ((hup.emit (.peerDispatch x.ptr st .rxReset) rfl).trans hd).trans hs
  | resetAck =>
    dsimp only
    split
    · exact hup.emit (.peerDispatch x.ptr st .rxResetAck) rfl
    · exact hup.emit (.peerDispatch x.ptr st .rxResetAck) rfl
  | other msgt => exact hup

theorem rxPrim_does {msg : MsgbPtr} {prim : ScuInd} (ho : a.rxPrim L io msg prim = .ok a') :
    a.net.Does (a.rxPrimEffect L io prim) a'.net := by
  cases prim with
  | nConnect connId addr l2 =>
    simp only [rxPrim, rxPrimEffect] at ho ⊢
    split at ho
    · rename_i hl
      cases ho
      rw [if_pos hl]
      exact Net.Does.refl
    · rename_i hl
      rw [if_neg hl]
      have hc : (a.emit (.connResp connId)).net.Does _ a'.net := connect_does ho
      have hscu : (a.net.emit (.connResp connId)).scu = a.net.scu := rfl
      rw [Service.emit, connectEffect_setNet hscu] at hc
      exact (Net.emit_does (.connResp connId) rfl).trans hc
  | nData connId l2 =>
    cases ho
    exact data_does
  | nDisconnect connId l2 =>
    cases ho
    show a.net.Does ((if l2.length ≠ 0 then _ else _) ++ _) _
    split
    · exact data_does.emit (.disconn connId) rfl
    · exact Net.Does.refl.emit (.disconn connId) rfl
  | nUnitdata addr l2 =>
    cases ho
    exact unitdata_does
  | unsupported l2 =>
    cases ho
    exact Net.Does.refl

theorem locReqTimeout_some {r : ReqPtr} (h : a.sessions.find? (fun s => s.req = r) = some s) :
    a.locReqTimeout L io r = a.finish L io s (.failure .systemFailure) ∧
    a.locReqTimeoutEffect L io r = a.finishEffect L io s (.failure .systemFailure) := by
  simp only [locReqTimeout, locReqTimeoutEffect, h, and_self]

theorem locReqTimeout_none {r : ReqPtr} (h : a.sessions.find? (fun s => s.req = r) = none) :
    a.locReqTimeout L io r = a ∧ a.locReqTimeoutEffect L io r = .nil := by
  simp only [locReqTimeout, locReqTimeoutEffect, h, and_self]

/-- The effect of an event is what it adds to the record and to the counters. -/
theorem step_does {i : Input} (ho : a.step L i = .ok a') : a.net.Does (a.effect L i) a'.net := by
  obtain ⟨ev, io⟩ := i
  cases ev with
  | scu prim =>
    simp only [step, handle] at ho
    split at ho
    · rename_i b hb
      cases ho
      have hp : (a.setNet a.net.takeMsgb).net.Does (a.rxPrimEffect L io prim) b.net :=
        rxPrimEffect_setNet (a := a) (n := a.net.takeMsgb) rfl ▸ rxPrim_does hb
      exact (Net.takeMsgb_does.trans hp).free _
    · cases ho
  | locReqTimer r =>
    cases ho
    show a.net.Does (a.locReqTimeoutEffect L io r) (a.locReqTimeout L io r).net
    cases hs : a.sessions.find? fun s => s.req = r with
    | some s =>
      rw [(locReqTimeout_some hs).1, (locReqTimeout_some hs).2]
      exact finish_does
    | none =>
      rw [(locReqTimeout_none hs).1, (locReqTimeout_none hs).2]
      exact Net.Does.refl
  | lbPeerTimer p =>
    cases ho
    show a.net.Does .nil (a.lbPeerTimeout p).net
    unfold lbPeerTimeout
    split
    · split
      · exact Net.Does.refl
      · exact Net.Does.refl
    · exact Net.Does.refl
  | vty cmd =>
    cases ho
    exact Net.Does.refl

end Does

section Counts

variable {L : Libosmo} {io : Io} {a : Service} {s : Session}

theorem finishEffect_acts {k : Ending} : (a.finishEffect L io s k).acts
    = (Effect.answer L io a.net.scu a.cellLocations s k).acts
      ++ [.locReqCleanup s.req, .disconn s.connId, .connFree s.conn] := rfl

theorem count_finishEffect {k : Ending} {b : Act} (hb : ¬b.Answers s) :
    (a.finishEffect L io s k).acts.count b
      = [Act.locReqCleanup s.req, .disconn s.connId, .connFree s.conn].count b := by
  have hzero : (Effect.answer L io a.net.scu a.cellLocations s k).acts.count b = 0 :=
    List.count_eq_zero.mpr fun hmem => hb (Effect.answer_answers hmem)
  rw [finishEffect_acts, List.count_append, hzero, Nat.zero_add]

end Counts
end Service

/-- The acts that are seen as they are. -/
def Act.plain : Act → Bool
  | .bssapLeEnc _ _ | .msgbFree _ | .sapDown _ _ _ => false
  | _ => true

section Seen

variable {b : Act} {acts : List Act}

theorem Act.seen_plain (hb : b.plain = true) (a : Act) : a.seen = some b ↔ a = b := by
  cases a with
  | bssapLeEnc pdu msg =>
    refine ⟨nofun, ?_⟩
    rintro rfl
    cases hb
  | msgbFree msg =>
    refine ⟨nofun, ?_⟩
    rintro rfl
    cases hb
  | sapDown req msg rc =>
    constructor
    · intro h
      cases Option.some.inj h
      cases hb
    · rintro rfl
      cases hb
  | _ => exact Option.some_inj

theorem count_seen (hb : b.plain = true) : (acts.filterMap Act.seen).count b = acts.count b := by
  rw [List.count_filterMap, List.count]
  apply List.countP_congr
  intro a _
  simpa using Act.seen_plain hb a

theorem mem_seen (hb : b.plain = true) : b ∈ acts.filterMap Act.seen ↔ b ∈ acts := by
  rw [List.mem_filterMap]
  constructor
  · rintro ⟨a, ha, hab⟩
    exact (Act.seen_plain hb a).mp hab ▸ ha
  · intro h
    exact ⟨b, h, (Act.seen_plain hb b).mpr rfl⟩

theorem mem_seen_sapDown {req : ScuReq} {rc : Int} :
    .sapDown req 0 rc ∈ acts.filterMap Act.seen ↔ ∃ msg, .sapDown req msg rc ∈ acts := by
  rw [List.mem_filterMap]
  constructor
  · rintro ⟨a, ha, hab⟩
    cases a with
    | sapDown req' msg rc' =>
      cases Option.some.inj hab
      exact ⟨msg, ha⟩
    | _ => cases hab
  · rintro ⟨msg, h⟩
    exact ⟨_, h, rfl⟩

/-- What holds of everything that is seen, and does not depend on buffers, holds of all acts. -/
theorem forall_of_seen {P : Act → Prop} (hP : ∀ a, (∀ c, a.seen = some c → P c) → P a)
    (h : ∀ c ∈ acts.filterMap Act.seen, P c) : ∀ a ∈ acts, P a := fun a ha =>
  hP a fun c hc => h c (List.mem_filterMap.mpr ⟨a, ha, hc⟩)

/-- A reading of the acts that does not depend on buffers can be taken from what is seen. -/
theorem filterMap_seen {β : Type*} {f : Act → Option β} (hf : ∀ a, f a = a.seen.bind f) :
    (acts.filterMap Act.seen).filterMap f = acts.filterMap f := by
  rw [List.filterMap_filterMap]
  exact List.filterMap_congr fun a _ => (hf a).symm

/-- Of what is shown, the record keeps whatever has to do with no buffer. -/
theorem Service.filterMap_step {L : Libosmo} {a a' : Service} {i : Input} {β : Type*}
    {f : Act → Option β} (hf : ∀ c, f c = c.seen.bind f) (ho : a.step L i = .ok a') :
    a'.net.log.filterMap f = a.net.log.filterMap f ++ (a.effect L i).acts.filterMap f := by
  obtain ⟨acts, hlog, hseen⟩ := (step_does ho).log
  rw [hlog, List.filterMap_append, ← hseen, filterMap_seen hf]

end Seen

/-- What the process recorded between two states of a run. -/
def newActs (w w' : World) : List Act := w'.net.log.drop w.net.log.length

theorem newActs_eq {w w' : World} {acts : List Act} (h : w'.net.log = w.net.log ++ acts) :
    newActs w w' = acts := by
  rw [newActs, h, List.drop_left]

/-- A step of the process, read off the service. -/
structure StepRecord (L : Libosmo) (a : Service) (i : Input) (w' : World) (a' : Service) :
    Prop where
  step : a.step L i = .ok a'
  wf : a'.WF
  world : w' = a'.world
  log : w'.net.log = a.world.net.log ++ newActs a.world w'
  seen : (newActs a.world w').filterMap Act.seen = (a.effect L i).acts
  does : a.net.Does (a.effect L i) a'.net

theorem step_record (L : Libosmo) {a : Service} {i : Input} {w' : World} (h : a.WF)
    (hs : step L a.world i = .ok w') : ∃ a', StepRecord L a i w' a' := by
  rw [step_world L h] at hs
  cases ha : a.step L i with
  | error e =>
    rw [ha] at hs
    cases hs
  | ok a' =>
    rw [ha] at hs
    cases hs
    have hd := Service.step_does ha
    obtain ⟨acts, hlog, hseen⟩ := hd.log
    have hnew : newActs a.world a'.world = acts := newActs_eq hlog
    exact ⟨a', ha, Service.step_wf h ha, rfl, hnew ▸ hlog, hnew ▸ hseen, hd⟩

namespace StepRecord

variable {L : Libosmo} {a a' : Service} {i : Input} {w' : World} {b : Act}

theorem mem_iff (h : StepRecord L a i w' a') (hb : b.plain = true) :
    b ∈ newActs a.world w' ↔ b ∈ (a.effect L i).acts := by
  rw [← h.seen]
  exact (mem_seen hb).symm

theorem count_eq (h : StepRecord L a i w' a') (hb : b.plain = true) :
    (newActs a.world w').count b = (a.effect L i).acts.count b := by
  rw [← h.seen]
  exact (count_seen hb).symm

end StepRecord
end OsmoSmlc
