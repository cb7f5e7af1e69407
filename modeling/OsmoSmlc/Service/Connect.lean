import OsmoSmlc.Properties.NoCrash
import OsmoSmlc.Service.Turn

/-! The outcomes of an N-CONNECT on a free connection id: what is shown, and what becomes of
the sessions. -/
namespace OsmoSmlc
open Osmo

/-- The outcome for a peer `x`, after the connection was confirmed and the message handed
to the peer. -/
inductive Service.Outcome (L : Libosmo) (io : Io) (a : Service) (x : LbPeer) (connId : ConnId)
    (m : Msg) : List Act → Service → Prop
  | refused {a' : Service} (hx : x.fi.state = .waitRxReset) (hs : a'.sessions = a.sessions) :
      Outcome L io a x connId m (Effect.sendCl io a.net.scu x.peerAddr .reset).acts a'
  | disconnected {a' : Service} (hx : x.fi.state = .waitRxResetAck)
      (hs : a'.sessions = a.sessions) :
      Outcome L io a x connId m
        (.disconn connId :: (Effect.sendCl io a.net.scu x.peerAddr .reset).acts) a'
  | ignored {a' : Service} (hx : x.fi.state = .ready) (hm : m = .ignored)
      (hs : a'.sessions = a.sessions) :
      Outcome L io a x connId m [.disconn connId, .connFree a.next.conn] a'
  | opened {a' : Service} (s : Session) (hx : x.fi.state = .ready) (hm : m = .request s.pdu)
      (hc : s.conn = a.next.conn) (hid : s.connId = connId) (hp : s.peer = x.ptr)
      (hsub : s.subscr = (a.bindRequest L s.pdu).1) (hs : a'.sessions = s :: a.sessions)
      (hbind : a'.subscrs = (a.bindRequest L s.pdu).2.subscrs) :
      Outcome L io a x connId m
        (.locReqRx s.conn (some .ready)
          :: (Effect.sendCo io a.net.scu s (.connOrientedInfo .taRequest)).acts
          ++ [.locReqAccepted s.req s.conn s.pdu]) a'
  | answered {a' : Service} (s : Session) (ta : UInt8) (hx : x.fi.state = .ready)
      (hm : m = .request s.pdu) (hc : s.conn = a.next.conn) (hid : s.connId = connId)
      (hs : a'.sessions = a.sessions) :
      Outcome L io a x connId m
        (.locReqRx s.conn (some .ready)
          :: (Effect.gotTa L io a.net.scu a.cellLocations s s.pdu.cellId ta).acts
          ++ [.locReqCleanup s.req, .locReqAccepted s.req s.conn s.pdu, .disconn connId,
            .connFree s.conn]) a'

namespace Service

variable {L : Libosmo} {io : Io} {a a' : Service} {connId : ConnId} {addr : SccpAddr}
  {x : LbPeer} {m : Msg}

theorem openSession_outcome {pdu : PerformLocReq} (h : a.WF) (hx : x.fi.state = .ready) :
    a.Outcome L io x connId (.request pdu) (a.openSessionEffect L io x.ptr connId pdu).acts
      (a.openSession L io x.ptr connId pdu) := by
  let s := a.newSession L x.ptr connId pdu
  by_cases hta : ∃ ta, pdu.apdu = some (.taLayer3 ta)
  · obtain ⟨ta, hta⟩ := hta
    rw [openSession_answered hta, openSessionEffect_answered hta]
    simp only [Effect.acts_append, Effect.acts_act, Effect.acts_request, List.append_assoc,
      List.cons_append, List.nil_append]
    refine .answered s ta hx rfl rfl rfl ?_
    show KeyedList.remove Session.conn (s :: a.sessions) s.conn = a.sessions
    exact KeyedList.remove_cons_self s fun t ht => Nat.ne_of_lt (h.connBound t ht)
  · have hta' : ∀ ta, pdu.apdu ≠ some (.taLayer3 ta) := fun ta h => hta ⟨ta, h⟩
    rw [openSession_pending hta', openSessionEffect_pending hta']
    exact .opened s hx rfl rfl rfl rfl rfl rfl rfl

theorem connectTo_outcome (h : a.WF) (hx : x ∈ a.lbPeers)
    (ho : a.connectTo L io x connId m = .ok a') :
    a.Outcome L io x connId m (a.connectToEffect L io x connId m).acts a' := by
  unfold connectTo at ho
  unfold connectToEffect
  cases hst : x.fi.state with
  | waitRxReset =>
    rw [hst] at ho
    cases ho
    exact .refused hst rfl
  | waitRxResetAck =>
    rw [hst] at ho
    cases ho
    exact .disconnected hst rfl
  | discarding => exact absurd hst (h.peerState x hx)
  | ready =>
    rw [hst] at ho
    cases m with
    | ignored =>
      cases ho
      exact .ignored hst rfl rfl
    | request pdu =>
      cases ho
      exact openSession_outcome h hst
    | ending k => cases ho

/-- Only some parts of the states matter. -/
theorem Outcome.congr {b b' : Service} {acts : List Act} (h : b.Outcome L io x connId m acts b')
    (hs : a.sessions = b.sessions) (hn : a.next.conn = b.next.conn)
    (hc : a.cellLocations = b.cellLocations) (hscu : a.net.scu = b.net.scu)
    (hsub : ∀ pdu, (a.bindRequest L pdu).1 = (b.bindRequest L pdu).1 ∧
      (a.bindRequest L pdu).2.subscrs = (b.bindRequest L pdu).2.subscrs)
    (hs' : a'.sessions = b'.sessions) (hsub' : a'.subscrs = b'.subscrs) :
    a.Outcome L io x connId m acts a' := by
  cases h with
  | refused hx hss =>
    rw [← hscu]
    exact .refused hx (hs'.trans (hss.trans hs.symm))
  | disconnected hx hss =>
    rw [← hscu]
    exact .disconnected hx (hs'.trans (hss.trans hs.symm))
  | ignored hx hm hss =>
    rw [← hn]
    exact .ignored hx hm (hs'.trans (hss.trans hs.symm))
  | opened s hx hm hcc hid hp hb hss hbind =>
    rw [← hscu]
    rw [← hs] at hss
    exact .opened s hx hm (hcc.trans hn.symm) hid hp (hb.trans (hsub s.pdu).1.symm)
      (hs'.trans hss) (hsub'.trans (hbind.trans (hsub s.pdu).2.symm))
  | answered s ta hx hm hcc hid hss =>
    rw [← hscu, ← hc]
    exact .answered s ta hx hm (hcc.trans hn.symm) hid (hs'.trans (hss.trans hs.symm))

theorem bindRequest_congr {b : Service} (hs : a.subscrs = b.subscrs)
    (hn : a.nextSubscr = b.nextSubscr) (pdu : PerformLocReq) :
    (a.bindRequest L pdu).1 = (b.bindRequest L pdu).1 ∧
    (a.bindRequest L pdu).2.subscrs = (b.bindRequest L pdu).2.subscrs := by
  by_cases ht : pdu.imsi.type = .imsi
  · rw [bindRequest_imsi ht, bindRequest_imsi ht]
    unfold bind
    rw [hs, hn]
    cases b.subscrs.find? fun x => L.mobileIdentityCmp x.imsi pdu.imsi = 0 with
    | some x => exact ⟨rfl, hs⟩
    | none => exact ⟨rfl, rfl⟩
  · rw [bindRequest_other ht, bindRequest_other ht]
    exact ⟨rfl, hs⟩

theorem peer_subscrs (L : Libosmo) (a : Service) (addr : SccpAddr) :
    (a.peer L addr).2.subscrs = a.subscrs ∧
    (a.peer L addr).2.nextSubscr = a.nextSubscr := by
  unfold peer
  split
  · exact ⟨rfl, rfl⟩
  · exact ⟨rfl, rfl⟩

/-- The step for an N-CONNECT with a payload on a free id. -/
theorem step_connect {l2 : List UInt8} (h : a.WF) (hl2 : l2 ≠ [])
    (hc : a.world.connById connId = none)
    (ho : a.step L ⟨.scu (.nConnect connId addr l2), io⟩ = .ok a') :
    ∃ acts, (a.effect L ⟨.scu (.nConnect connId addr l2), io⟩).acts
        = .connResp connId :: .peerDispatch (a.peer L addr).1.ptr (a.peer L addr).1.fi.state
          .msgUpCoInitial :: acts ∧
      a.Outcome L io (a.peer L addr).1 connId (L.msg l2) acts a' := by
  have hlen : l2.length ≠ 0 := fun h => hl2 (List.length_eq_zero_iff.mp h)
  have hany : ¬a.sessions.any (fun s => s.connId = connId) = true := by
    rw [connTo_world_none] at hc
    intro h
    obtain ⟨s, hs, hid⟩ := List.any_eq_true.mp h
    exact hc s hs (by simpa using hid)
  let x := (a.peer L addr).1
  let b := (a.setNet a.net.takeMsgb).emit (.connResp connId)
  refine ⟨(a.connectToEffect L io x connId (L.msg l2)).acts, ?_, ?_⟩
  · show (Effect.msgb ++ a.rxPrimEffect L io (.nConnect connId addr l2)).acts = _
    simp only [rxPrimEffect, if_neg hlen, connectEffect, if_neg hany]
    rfl
  · simp only [step, handle, rxPrim, if_neg hlen] at ho
    split at ho
    · rename_i c hcon
      cases ho
      have hbp : b.peer L addr = (x, (a.peer L addr).2.setNet b.net) :=
        peer_setNet (a := a) (n := b.net)
      have hcon' : b.connect L io connId addr (L.msg l2) = .ok c := hcon
      unfold connect at hcon'
      have hanyb : ¬b.sessions.any (fun s => s.connId = connId) = true := hany
      rw [if_neg hanyb, hbp] at hcon'
      obtain ⟨hs, hr, hcn, hcells, hnet⟩ := peer_parts L a addr
      obtain ⟨hsub, hnext⟩ := peer_subscrs L a addr
      let d := ((a.peer L addr).2.setNet b.net).emit (.peerDispatch x.ptr x.fi.state .msgUpCoInitial)
      have hout : d.Outcome L io x connId (L.msg l2)
          (d.connectToEffect L io x connId (L.msg l2)).acts c :=
        connectTo_outcome ((h.peer.setNet _).emit _) peer_mem hcon'
      have he : d.connectToEffect L io x connId (L.msg l2)
          = a.connectToEffect L io x connId (L.msg l2) := by
        have hn : d.net.scu = (a.peer L addr).2.net.scu := (congrArg Net.scu hnet).symm
        exact (connectToEffect_setNet hn).trans connectToEffect_peer
      rw [he] at hout
      exact hout.congr hs.symm hcn.symm hcells.symm rfl (bindRequest_congr hsub.symm hnext.symm) rfl
        rfl
    · cases ho

/-- The same for a request to a peer in READY. -/
theorem step_connect_request {l2 : List UInt8} {pdu : PerformLocReq} (hl2 : l2 ≠ [])
    (hc : a.world.connById connId = none) (hx : (a.peer L addr).1.fi.state = .ready)
    (hm : L.msg l2 = .request pdu)
    (ho : a.step L ⟨.scu (.nConnect connId addr l2), io⟩ = .ok a') :
    (∃ n n', a' = (((a.peer L addr).2.setNet n).openSession L io (a.peer L addr).1.ptr connId
      pdu).setNet n') ∧
    a.effect L ⟨.scu (.nConnect connId addr l2), io⟩ = .msgb ++ (.act (.connResp connId)
      ++ (.act (.peerDispatch (a.peer L addr).1.ptr .ready .msgUpCoInitial)
        ++ a.openSessionEffect L io (a.peer L addr).1.ptr connId pdu)) := by
  have hlen : l2.length ≠ 0 := fun h => hl2 (List.length_eq_zero_iff.mp h)
  have hany : ¬a.sessions.any (fun s => s.connId = connId) = true := by
    rw [connTo_world_none] at hc
    intro h
    obtain ⟨s, hs, hid⟩ := List.any_eq_true.mp h
    exact hc s hs (by simpa using hid)
  let b := (a.setNet a.net.takeMsgb).emit (.connResp connId)
  constructor
  · simp only [step, handle, rxPrim, if_neg hlen] at ho
    split at ho
    · rename_i c hcon
      cases ho
      have hbp : b.peer L addr = ((a.peer L addr).1, (a.peer L addr).2.setNet b.net) :=
        peer_setNet (a := a) (n := b.net)
      have hcon' : b.connect L io connId addr (L.msg l2) = .ok c := hcon
      have hanyb : ¬b.sessions.any (fun s => s.connId = connId) = true := hany
      unfold connect at hcon'
      rw [if_neg hanyb, hbp, hm] at hcon'
      simp only [connectTo, hx] at hcon'
      cases hcon'
      exact ⟨_, _, rfl⟩
    · cases ho
  · show Effect.msgb ++ a.rxPrimEffect L io (.nConnect connId addr l2) = _
    simp only [rxPrimEffect, if_neg hlen, connectEffect, if_neg hany, connectToEffect, hx, hm]
    rfl

/-- Without a payload, or on an id that is in use, an N-CONNECT does not reach its peer. -/
theorem step_connect_refused {l2 : List UInt8} (hl2 : l2 = [] ∨ a.world.connById connId ≠ none)
    (ho : a.step L ⟨.scu (.nConnect connId addr l2), io⟩ = .ok a') :
    a'.sessions = a.sessions ∧
    ((a.effect L ⟨.scu (.nConnect connId addr l2), io⟩).acts = [] ∨
      (a.effect L ⟨.scu (.nConnect connId addr l2), io⟩).acts
        = [.connResp connId, .disconn connId]) := by
  show _ ∧ ((Effect.msgb ++ a.rxPrimEffect L io (.nConnect connId addr l2)).acts = [] ∨
    (Effect.msgb ++ a.rxPrimEffect L io (.nConnect connId addr l2)).acts = _)
  simp only [step, handle, rxPrim, rxPrimEffect] at ho ⊢
  by_cases hlen : l2.length = 0
  · rw [if_pos hlen] at ho ⊢
    cases ho
    exact ⟨rfl, .inl rfl⟩
  · have hc := hl2.resolve_left fun h => hlen (List.length_eq_zero_iff.mpr h)
    have hany : a.sessions.any (fun s => s.connId = connId) = true := by
      by_contra hno
      refine hc (connTo_world_none.mpr fun s hs heq => hno ?_)
      exact List.any_eq_true.mpr ⟨s, hs, by simpa using heq⟩
    have hcon : ((a.setNet a.net.takeMsgb).emit (.connResp connId)).connect L io connId addr
        (L.msg l2) = .ok (((a.setNet a.net.takeMsgb).emit (.connResp connId)).emit
          (.disconn connId)) := if_pos hany
    rw [if_neg hlen] at ho ⊢
    rw [hcon] at ho
    cases ho
    refine ⟨rfl, .inr ?_⟩
    rw [connectEffect, if_pos hany]
    rfl

section Outcome

variable {acts : List Act} {pdu : PerformLocReq}

/-- A request is accepted on a new connection of a peer in READY only. -/
theorem Outcome.accepted {r : ReqPtr} {c : ConnPtr} (h : a.Outcome L io x connId m acts a')
    (hacc : .locReqAccepted r c pdu ∈ acts) :
    x.fi.state = .ready ∧ m = .request pdu ∧ c = a.next.conn := by
  cases h with
  | refused hx hs =>
    obtain ⟨rc, hrc⟩ := Effect.sendCl_acts hacc
    cases hrc
  | disconnected hx hs =>
    rcases List.mem_cons.mp hacc with hacc | hacc
    · cases hacc
    · obtain ⟨rc, hrc⟩ := Effect.sendCl_acts hacc
      cases hrc
  | ignored hx hm hs => simp at hacc
  | opened s hx hm hc hid hp hsub hs hbind =>
    rcases List.mem_append.mp hacc with hacc | hacc
    · rcases List.mem_cons.mp hacc with hacc | hacc
      · cases hacc
      · exact absurd (Effect.sendCo_answers hacc) id
    · cases List.mem_singleton.mp hacc
      exact ⟨hx, hm, hc⟩
  | answered s ta hx hm hc hid hs =>
    rcases List.mem_append.mp hacc with hacc | hacc
    · rcases List.mem_cons.mp hacc with hacc | hacc
      · cases hacc
      · exact absurd (Effect.gotTa_answers hacc) id
    · have heq : (Act.locReqAccepted r c pdu) = .locReqAccepted s.req s.conn s.pdu := by
        simpa using hacc
      cases heq
      exact ⟨hx, hm, hc⟩

theorem Outcome.request (h : a.Outcome L io x connId (.request pdu) acts a')
    (hx : x.fi.state = .ready) : ∃ r, .locReqAccepted r a.next.conn pdu ∈ acts := by
  cases h with
  | refused hx' hs => cases hx.symm.trans hx'
  | disconnected hx' hs => cases hx.symm.trans hx'
  | ignored hx' hm hs => cases hm
  | opened s hx' hm hc hid hp hsub hs hbind =>
    cases hm
    rw [← hc]
    exact ⟨s.req, by simp⟩
  | answered s ta hx' hm hc hid hs =>
    cases hm
    rw [← hc]
    exact ⟨s.req, by simp⟩

/-- No connection that was listed before is closed. -/
theorem Outcome.keeps (h : a.Outcome L io x connId m acts a') :
    (∀ s ∈ a.sessions, s ∈ a'.sessions) ∧
    ∀ c, c ≠ a.next.conn → acts.count (.connFree c) = 0 := by
  cases h with
  | refused hx hs =>
    refine ⟨fun s hmem => hs ▸ hmem, fun c hc => List.count_eq_zero.mpr fun hmem => ?_⟩
    obtain ⟨rc, hrc⟩ := Effect.sendCl_acts hmem
    cases hrc
  | disconnected hx hs =>
    refine ⟨fun s hmem => hs ▸ hmem, fun c hc => List.count_eq_zero.mpr fun hmem => ?_⟩
    rcases List.mem_cons.mp hmem with hmem | hmem
    · cases hmem
    · obtain ⟨rc, hrc⟩ := Effect.sendCl_acts hmem
      cases hrc
  | ignored hx hm hs =>
    exact ⟨fun s hmem => hs ▸ hmem, fun c hc => by simp [Ne.symm hc]⟩
  | opened s hx hm hcc hid hp hsub hs hbind =>
    refine ⟨fun t hmem => hs ▸ List.mem_cons_of_mem _ hmem, fun c hc => ?_⟩
    apply List.count_eq_zero.mpr
    intro hmem
    rcases List.mem_append.mp hmem with hmem | hmem
    · rcases List.mem_cons.mp hmem with hmem | hmem
      · cases hmem
      · exact Effect.sendCo_answers hmem
    · simp at hmem
  | answered s ta hx hm hcc hid hs =>
    refine ⟨fun s hmem => hs ▸ hmem, fun c hc => ?_⟩
    apply List.count_eq_zero.mpr
    intro hmem
    rcases List.mem_append.mp hmem with hmem | hmem
    · rcases List.mem_cons.mp hmem with hmem | hmem
      · cases hmem
      · exact Effect.gotTa_answers hmem
    · have heq : c = s.conn := by simpa using hmem
      exact hc (heq.trans hcc)

end Outcome

/-- What is known of a step in which a request is accepted. -/
theorem step_accepted {i : Input} {r : ReqPtr} {c : ConnPtr} {pdu : PerformLocReq} (h : a.WF)
    (ho : a.step L i = .ok a') (hacc : .locReqAccepted r c pdu ∈ (a.effect L i).acts) :
    ∃ connId addr l2 acts, i.ev = .scu (.nConnect connId addr l2) ∧ l2 ≠ [] ∧
      a.world.connById connId = none ∧
      (a.effect L i).acts = .connResp connId :: .peerDispatch (a.peer L addr).1.ptr
        (a.peer L addr).1.fi.state .msgUpCoInitial :: acts ∧
      a.Outcome L i.io (a.peer L addr).1 connId (L.msg l2) acts a' ∧
      .locReqAccepted r c pdu ∈ acts := by
  have hev : ∃ connId addr l2, i.ev = .scu (.nConnect connId addr l2) := by
    have htold : (r, .accepted c) ∈ (a.effect L i).told :=
      List.mem_filterMap.mpr ⟨_, hacc, rfl⟩
    have hturn := step_turn h ho
    generalize (a.effect L i).told = told at htold hturn
    cases hturn with
    | quiet hs hr => cases htold
    | ended s k hmem hs hr =>
      rcases List.mem_append.mp htold with htold | htold
      · obtain ⟨act, hact, heq⟩ := List.mem_filterMap.mp htold
        have ha := Effect.answer_answers hact
        obtain ⟨pdu', rfl⟩ := Act.told_accepted heq
        exact absurd ha id
      · simp at htold
    | discarded p hs hr => simp at htold
    | opened s addr l2 hev hreq hs hr => exact ⟨_, addr, l2, hev⟩
    | answered s ta addr l2 hev hreq hs hr => exact ⟨_, addr, l2, hev⟩
  obtain ⟨connId, addr, l2, hev⟩ := hev
  obtain ⟨ev, io⟩ := i
  obtain rfl : ev = _ := hev
  by_cases hno : l2 = [] ∨ a.world.connById connId ≠ none
  · rcases (step_connect_refused hno ho).2 with hacts | hacts
    · rw [hacts] at hacc
      cases hacc
    · rw [hacts] at hacc
      simp at hacc
  · rw [not_or, not_not] at hno
    obtain ⟨acts, hacts, hout⟩ := step_connect h hno.1 hno.2 ho
    refine ⟨connId, addr, l2, acts, rfl, hno.1, hno.2, hacts, hout, ?_⟩
    rw [hacts] at hacc
    simpa using hacc
end Service
end OsmoSmlc
