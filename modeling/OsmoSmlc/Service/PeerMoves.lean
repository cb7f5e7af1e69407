import OsmoSmlc.Service.Objects

/-! How the state of a peer changes in one event: READY and WAIT_RX_RESET_ACK are entered
only by the steps of the RESET procedure. -/
namespace OsmoSmlc
open Osmo

/-- A message that was accepted by the SCCP layer is seen. -/
theorem Effect.accepted_sendCl {io : Io} {scu : Bool} {addr : SccpAddr} {pdu : BssmapLePdu}
    (h : accepted io scu addr pdu = true) :
    .sapDown (.nUnitdata addr (.bssmapLe pdu)) 0 0 ∈ (sendCl io scu addr pdu).acts := by
  simp only [accepted, Bool.and_eq_true, beq_iff_eq] at h
  obtain ⟨⟨henc, hscu⟩, hrc⟩ := h
  simp [sendCl, henc, down, hscu, hrc]

namespace Service

variable {L : Libosmo} {io : Io} {a a' : Service} {i : Input} {p : PeerPtr} {st st' : LbPeerState}
  {addr : SccpAddr} {connId : ConnId} {m : Msg} {x : LbPeer} {acts : List Act}

/-- How a peer can have come into a state. -/
inductive PeerMove (L : Libosmo) (ev : Event) (a : Service) (p : PeerPtr) (st : LbPeerState)
    (acts : List Act) : Prop
  | kept (h : a.peerState p = some st)
  | waiting (h : st = .waitRxReset)
  | acknowledged (addr : SccpAddr) (l2 : List UInt8) (hev : ev = .scu (.nUnitdata addr l2))
      (hmsg : L.bssmapLeMsgt l2 = .reset) (hp : (a.peer L addr).1.ptr = p) (hst : st = .ready)
      (hacc : .sapDown (.nUnitdata (a.peer L addr).1.peerAddr (.bssmapLe .resetAck)) 0 0 ∈ acts)
  | completed (addr : SccpAddr) (l2 : List UInt8) (hev : ev = .scu (.nUnitdata addr l2))
      (hmsg : L.bssmapLeMsgt l2 = .resetAck) (hp : (a.peer L addr).1.ptr = p)
      (hold : (a.peer L addr).1.fi.state = .waitRxResetAck) (hst : st = .ready)
  | started (connId : ConnId) (addr : SccpAddr) (l2 : List UInt8)
      (hev : ev = .scu (.nConnect connId addr l2)) (hp : (a.peer L addr).1.ptr = p)
      (hst : st = .waitRxResetAck)
      (hacc : .sapDown (.nUnitdata (a.peer L addr).1.peerAddr (.bssmapLe .reset)) 0 0 ∈ acts)

theorem peerState_setPeer : (a.setPeer p st).peerState p = (a.peerState p).map fun _ => st := by
  have hl : KeyedList.lookup LbPeer.ptr (a.setPeer p st).lbPeers p = _ :=
    KeyedList.lookup_update_self fun _ => rfl
  unfold peerState
  rw [hl, Option.map_map, Option.map_map]
  rfl

theorem peerState_setPeer_ne {q : PeerPtr} (hq : q ≠ p) :
    (a.setPeer p st).peerState q = a.peerState q := by
  have hl : KeyedList.lookup LbPeer.ptr (a.setPeer p st).lbPeers q = _ :=
    KeyedList.lookup_update_ne (fun _ => rfl) hq
  unfold peerState
  rw [hl]

/-- A state after `setPeer` is the one that was set, or an old one. -/
theorem peerState_setPeer_cases {q : PeerPtr} (h : (a.setPeer p st).peerState q = some st') :
    a.peerState q = some st' ∨ q = p ∧ st' = st := by
  by_cases hq : q = p
  · subst hq
    rw [peerState_setPeer] at h
    obtain ⟨_, _, rfl⟩ := Option.map_eq_some_iff.mp h
    exact .inr ⟨rfl, rfl⟩
  · rw [peerState_setPeer_ne hq] at h
    exact .inl h

/-- A peer that an event creates waits for a RESET. -/
theorem peerState_peer (h : (a.peer L addr).2.peerState p = some st) :
    a.peerState p = some st ∨ st = .waitRxReset := by
  unfold peer at h
  split at h
  · exact .inl h
  · let x : LbPeer := ⟨a.next.peer, ⟨.waitRxReset, false, false⟩, addr⟩
    have hx : (KeyedList.lookup LbPeer.ptr (x :: a.lbPeers) p).map (fun x => x.fi.state)
        = some st := h
    by_cases hp : x.ptr = p
    · subst hp
      rw [KeyedList.lookup_cons_self] at hx
      cases hx
      exact .inr rfl
    · rw [KeyedList.lookup_cons_ne hp] at hx
      exact .inl hx

theorem peerState_reset (h : (a.reset io x).peerState p = some st) :
    a.peerState p = some st ∨ st = .waitRxReset ∨ x.ptr = p ∧ st = .waitRxResetAck ∧
      .sapDown (.nUnitdata x.peerAddr (.bssmapLe .reset)) 0 0
        ∈ (Effect.sendCl io a.net.scu x.peerAddr .reset).acts := by
  have hset : (a.setPeer x.ptr (a.net.sendReset io x.peerAddr).1).peerState p = some st := h
  rcases peerState_setPeer_cases hset with hold | ⟨hp, hst⟩
  · exact .inl hold
  · rw [Net.sendReset_does.2] at hst
    split at hst
    · rename_i hacc
      exact .inr (.inr ⟨hp.symm, hst, Effect.accepted_sendCl hacc⟩)
    · exact .inr (.inl hst)

theorem peerState_ackReset {msg : MsgbPtr} (h : (a.ackReset io x msg).peerState p = some st) :
    a.peerState p = some st ∨ st = .waitRxReset ∨ x.ptr = p ∧ st = .ready ∧
      .sapDown (.nUnitdata x.peerAddr (.bssmapLe .resetAck)) 0 0
        ∈ (Effect.sendCl io a.net.scu x.peerAddr .resetAck).acts := by
  have hset : (a.setPeer x.ptr (a.net.sendResetAck io x.peerAddr msg).1).peerState p = some st := h
  rcases peerState_setPeer_cases hset with hold | ⟨hp, hst⟩
  · exact .inl hold
  · rw [Net.sendResetAck_does.2] at hst
    split at hst
    · rename_i hacc
      exact .inr (.inr ⟨hp.symm, hst, Effect.accepted_sendCl hacc⟩)
    · exact .inr (.inl hst)

theorem openSession_lbPeers {pdu : PerformLocReq} :
    (a.openSession L io p connId pdu).lbPeers = a.lbPeers := by
  have hb : (a.bindRequest L pdu).2.lbPeers = a.lbPeers := by rw [bindRequest_frame]
  unfold openSession
  split
  · exact hb
  · exact hb

/-- Only the RESET procedure changes peers when a connection comes in. -/
theorem connectTo_peerState (ho : a.connectTo L io x connId m = .ok a')
    (h : a'.peerState p = some st) :
    a.peerState p = some st ∨ st = .waitRxReset ∨ x.ptr = p ∧ st = .waitRxResetAck ∧
      .sapDown (.nUnitdata x.peerAddr (.bssmapLe .reset)) 0 0
        ∈ (a.connectToEffect L io x connId m).acts := by
  unfold connectTo at ho
  unfold connectToEffect
  cases hst : x.fi.state with
  | waitRxReset =>
    rw [hst] at ho
    cases ho
    exact peerState_reset h
  | waitRxResetAck =>
    rw [hst] at ho
    cases ho
    rcases peerState_reset h with hk | hw | ⟨hp, hst', hacc⟩
    · exact .inl hk
    · exact .inr (.inl hw)
    · exact .inr (.inr ⟨hp, hst', List.mem_append_right _ hacc⟩)
  | discarding =>
    rw [hst] at ho
    cases ho
    exact .inl h
  | ready =>
    rw [hst] at ho
    refine .inl ?_
    cases m with
    | ignored =>
      cases ho
      exact h
    | request pdu =>
      cases ho
      unfold peerState at h ⊢
      rwa [openSession_lbPeers] at h
    | ending k => cases ho

theorem connect_peerMove {l2 : List UInt8} {ev : Event} (hev : ev = .scu (.nConnect connId addr l2))
    (ho : a.connect L io connId addr m = .ok a') (h : a'.peerState p = some st) :
    a.PeerMove L ev p st (a.connectEffect L io connId addr m).acts := by
  unfold connect at ho
  unfold connectEffect
  split at ho
  · cases ho
    exact .kept h
  · rename_i hany
    rw [if_neg hany]
    let x := (a.peer L addr).1
    have he : ((a.peer L addr).2.emit (.peerDispatch x.ptr x.fi.state .msgUpCoInitial)).connectToEffect
        L io x connId m = a.connectToEffect L io x connId m :=
      (connectToEffect_setNet rfl).trans connectToEffect_peer
    rcases connectTo_peerState ho h with hk | hw | ⟨hp, hst, hacc⟩
    · rcases peerState_peer hk with hk | hw
      · exact .kept hk
      · exact .waiting hw
    · exact .waiting hw
    · rw [he] at hacc
      exact .started connId addr l2 hev hp hst (List.mem_append_right _ hacc)

theorem discardAll_scu : (a.discardAll p).net.scu = a.net.scu := (Net.discardAll_does _).scu

theorem unitdata_peerMove {l2 : List UInt8} {msg : MsgbPtr} {ev : Event}
    (hev : ev = .scu (.nUnitdata addr l2))
    (h : (a.unitdata L io addr l2 msg).peerState p = some st) :
    a.PeerMove L ev p st (a.unitdataEffect L io addr l2).acts := by
  have hpeer : ∀ {b : Service}, b.lbPeers = (a.peer L addr).2.lbPeers → b.peerState p = some st →
      a.peerState p = some st ∨ st = .waitRxReset := by
    intro b hb hst
    unfold peerState at hst
    rw [hb] at hst
    exact peerState_peer hst
  unfold unitdata at h
  unfold unitdataEffect
  cases hmsg : L.bssmapLeMsgt l2 with
  | reset =>
    rw [hmsg] at h
    rcases peerState_ackReset h with hk | hw | ⟨hp, hst, hacc⟩
    · rcases hpeer rfl hk with hk | hw
      · exact .kept hk
      · exact .waiting hw
    · exact .waiting hw
    · rw [discardAll_scu] at hacc
      have hscu : (a.peer L addr).2.net.scu = a.net.scu := congrArg Net.scu (peer_net L a addr)
      exact .acknowledged addr l2 hev hmsg hp hst (List.mem_append_right _ (hscu ▸ hacc))
  | resetAck =>
    rw [hmsg] at h
    dsimp only at h
    split at h
    · rename_i hold
      rcases peerState_setPeer_cases h with hk | ⟨hp, hst⟩
      · rcases hpeer rfl hk with hk | hw
        · exact .kept hk
        · exact .waiting hw
      · exact .completed addr l2 hev hmsg hp.symm hold hst
    · rcases hpeer rfl h with hk | hw
      · exact .kept hk
      · exact .waiting hw
  | other msgt =>
    rw [hmsg] at h
    rcases hpeer rfl h with hk | hw
    · exact .kept hk
    · exact .waiting hw

theorem data_lbPeers : (a.data L io connId m).lbPeers = a.lbPeers := by
  unfold data
  split
  · cases m <;> rfl
  · rfl

theorem PeerMove.of_setNet {n : Net} {ev : Event} (h : (a.setNet n).PeerMove L ev p st acts) :
    a.PeerMove L ev p st acts := by
  have hpeer : ∀ addr, ((a.setNet n).peer L addr).1 = (a.peer L addr).1 := by
    intro addr
    rw [peer_setNet]
  cases h with
  | kept h => exact .kept h
  | waiting h => exact .waiting h
  | acknowledged addr l2 hev hmsg hp hst hacc =>
    rw [hpeer] at hp hacc
    exact .acknowledged addr l2 hev hmsg hp hst hacc
  | completed addr l2 hev hmsg hp hold hst =>
    rw [hpeer] at hp hold
    exact .completed addr l2 hev hmsg hp hold hst
  | started connId addr l2 hev hp hst hacc =>
    rw [hpeer] at hp hacc
    exact .started connId addr l2 hev hp hst hacc

theorem PeerMove.mono {ev : Event} {acts' : List Act} (h : a.PeerMove L ev p st acts)
    (hsub : ∀ act ∈ acts, act ∈ acts') : a.PeerMove L ev p st acts' := by
  cases h with
  | kept h => exact .kept h
  | waiting h => exact .waiting h
  | acknowledged addr l2 hev hmsg hp hst hacc =>
    exact .acknowledged addr l2 hev hmsg hp hst (hsub _ hacc)
  | completed addr l2 hev hmsg hp hold hst => exact .completed addr l2 hev hmsg hp hold hst
  | started connId addr l2 hev hp hst hacc =>
    exact .started connId addr l2 hev hp hst (hsub _ hacc)

theorem rxPrim_peerMove {prim : ScuInd} {msg : MsgbPtr} (ho : a.rxPrim L io msg prim = .ok a')
    (h : a'.peerState p = some st) :
    a.PeerMove L (.scu prim) p st (a.rxPrimEffect L io prim).acts := by
  cases prim with
  | nConnect connId addr l2 =>
    simp only [rxPrim, rxPrimEffect] at ho ⊢
    split at ho
    · cases ho
      exact .kept h
    · rename_i hl
      rw [if_neg hl]
      have hm : (a.emit (.connResp connId)).PeerMove L (.scu (.nConnect connId addr l2)) p st _ :=
        connect_peerMove rfl ho h
      have hn : (a.net.emit (.connResp connId)).scu = a.net.scu := rfl
      rw [Service.emit, connectEffect_setNet hn] at hm
      exact hm.of_setNet.mono fun act hact => List.mem_append_right _ hact
  | nData connId l2 =>
    cases ho
    unfold peerState at h
    rw [data_lbPeers] at h
    exact .kept h
  | nDisconnect connId l2 =>
    cases ho
    refine .kept ?_
    split at h
    · unfold peerState at h ⊢
      have hl : ((a.data L io connId (L.msg l2)).emit (.disconn connId)).lbPeers = a.lbPeers :=
        data_lbPeers
      rwa [hl] at h
    · exact h
  | nUnitdata addr l2 =>
    cases ho
    exact unitdata_peerMove rfl h
  | unsupported l2 =>
    cases ho
    exact .kept h

/-- Every event moves peers in one of these ways only. -/
theorem step_peerMove (ho : a.step L i = .ok a') (h : a'.peerState p = some st) :
    a.PeerMove L i.ev p st (a.effect L i).acts := by
  obtain ⟨ev, io⟩ := i
  cases ev with
  | scu prim =>
    simp only [step, handle] at ho
    split at ho
    · rename_i c hc
      cases ho
      have hst : c.peerState p = some st := h
      have hm := rxPrim_peerMove hc hst
      have hscu : a.net.takeMsgb.scu = a.net.scu := rfl
      have he : (a.setNet a.net.takeMsgb).rxPrimEffect L io prim = a.rxPrimEffect L io prim :=
        rxPrimEffect_setNet hscu
      rw [he] at hm
      exact hm.of_setNet.mono fun act hact => List.mem_append_right _ hact
    · cases ho
  | locReqTimer r =>
    cases ho
    refine .kept ?_
    have hst : (a.locReqTimeout L io r).peerState p = some st := h
    unfold locReqTimeout at hst
    split at hst
    · exact hst
    · exact hst
  | lbPeerTimer q =>
    cases ho
    have hst : (a.lbPeerTimeout q).peerState p = some st := h
    unfold lbPeerTimeout at hst
    split at hst
    · split at hst
      · rcases peerState_setPeer_cases hst with hk | ⟨-, hw⟩
        · exact .kept hk
        · exact .waiting hw
      · exact .kept hst
    · exact .kept hst
  | vty cmd =>
    cases ho
    exact .kept h

end Service
end OsmoSmlc
