import OsmoSmlc.Model.Sample
import OsmoSmlc.Service.Content
import OsmoSmlc.Service.Objects

/-! A TA that the process has asked for leads to the same answer as one that comes with the
request, and leaves the same behind. -/
namespace OsmoSmlc
open Osmo

/-- The request `q` on `x` waits for its TA, and gets it by a BSSLAP message in an N-DATA. (In
the payload of an N-DISCONNECT the message does the same, and the SMLC disconnects once more.) -/
structure GetsTa (L : Libosmo) (io : Io) (n : UInt16) (ta : UInt8) (w : World) (q : SmlcLocReq)
    (x : LbConn) (l2 : List UInt8) (w' : World) : Prop where
  reachable : ReachableWorld L w
  locReq : q ∈ w.locReqs
  lbConn : x ∈ w.lbConns
  pending : x.smlcLocReq = some q.ptr
  bsslap : L.bssapLeDec l2 = some (.bssmapLe (.connOrientedInfo (.taResponse n ta))) ∨
    L.bssapLeDec l2 = some (.bssmapLe (.connOrientedInfo (.reset n ta)))
  step : step L w ⟨.scu (.nData x.sccpConnId l2), io⟩ = .ok w'

/-- A request is accepted as the first message of a connection. -/
structure Accepts (L : Libosmo) (io : Io) (pdu : PerformLocReq) (w : World) (connId : ConnId)
    (addr : SccpAddr) (l2 : List UInt8) (r : ReqPtr) (c : ConnPtr) (w' : World) : Prop where
  reachable : ReachableWorld L w
  step : step L w ⟨.scu (.nConnect connId addr l2), io⟩ = .ok w'
  accepted : .locReqAccepted r c pdu ∈ newActs w w'

/-- The request and its connection end, once. -/
structure World.Ends (w : World) (r : ReqPtr) (c : ConnPtr) (connId : ConnId) (w' : World) :
    Prop where
  locReq : w'.locReq? r = none
  lbConn : w'.lbConn? c = none
  cleanup : (newActs w w').count (.locReqCleanup r) = 1
  disconn : (newActs w w').count (.disconn connId) = 1
  free : (newActs w w').count (.connFree c) = 1

namespace Effect

variable {L : Libosmo} {io io' : Io} {scu scu' : Bool} {cells : CellStore} {s s' : Session}
  {k : CellId} {ta : UInt8}

theorem responses_sendCo_own {resp : PerformLocResp} :
    (sendCo io scu s (.performLocResp resp)).responses s.req
      = if io.bssapLeEnc (.bssmapLe (.performLocResp resp)) then [resp] else [] := by
  split
  · rename_i henc
    simp [responses, told_sendCo henc, Act.told, Told.response?]
  · rename_i henc
    rw [sendCo, if_neg henc]
    rfl

/-- What is answered depends on the cells, the cell, the TA and what can be encoded. -/
theorem responses_gotTa_congr (hio : io'.bssapLeEnc = io.bssapLeEnc) :
    (gotTa L io scu cells s k ta).responses s.req
      = (gotTa L io' scu' cells s' k ta).responses s'.req := by
  have hfail : ∀ cause, (failed io scu s cause).responses s.req
      = (failed io' scu' s' cause).responses s'.req := by
    intro cause
    rw [failed, failed, responses_sendCo_own, responses_sendCo_own, hio]
  unfold gotTa
  rw [hio]
  cases Net.estimate L cells k ta with
  | none => exact hfail _
  | some raw =>
    dsimp only
    split
    · rw [responses_sendCo_own, responses_sendCo_own, hio]
    · rw [responses_append, responses_append, hfail]
      rfl

end Effect

namespace Service

variable {L : Libosmo} {io io' : Io} {a a' b : Service} {s : Session} {k : Ending}
  {l2 : List UInt8} {p : PeerPtr} {connId : ConnId} {pdu pdu' : PerformLocReq}

/-- The step for an N-DATA that ends a session. -/
theorem step_data_ending (h : a.WF) (hs : s ∈ a.sessions) (hm : L.msg l2 = .ending k)
    (ho : a.step L ⟨.scu (.nData s.connId l2), io⟩ = .ok a') :
    (∃ n, a' = a.drop s n) ∧ a.effect L ⟨.scu (.nData s.connId l2), io⟩
      = .msgb ++ (.act (.peerDispatch s.peer .ready .msgUpCo) ++ a.finishEffect L io s k) := by
  have hfind := find_connId h hs
  let b := (a.setNet a.net.takeMsgb).emit (.peerDispatch s.peer .ready .msgUpCo)
  constructor
  · simp only [step, handle, rxPrim, hm] at ho
    rw [(data_some (a := a.setNet a.net.takeMsgb) hfind).1] at ho
    cases ho
    exact ⟨(b.finish L io s k).net.emit (.msgbFree a.net.nextMsgb), rfl⟩
  · show Effect.msgb ++ a.dataEffect L io s.connId (L.msg l2) = _
    rw [hm, (data_some hfind).2]
    rfl

/-- A session that has ended leaves nothing behind but the names it has used. -/
theorem withSession_drop {n n' : Net} (hcb : ∀ t ∈ b.sessions, t.conn < b.next.conn) :
    (b.withSession L p connId pdu n).drop (b.newSession L p connId pdu) n' =
      { b with
        subscrs := (b.bindRequest L pdu).2.subscrs.filter fun x => 0 < refs b.sessions x.ptr
        nextSubscr := (b.bindRequest L pdu).2.nextSubscr
        next := { b.next with conn := b.next.conn + 1, req := b.next.req + 1 }
        net := n' } := by
  have hrem : KeyedList.remove Session.conn (b.newSession L p connId pdu :: b.sessions)
      (b.newSession L p connId pdu).conn = b.sessions :=
    KeyedList.remove_cons_self _ fun t ht => Nat.ne_of_lt (hcb t ht)
  unfold drop withSession gc
  rw [bindRequest_frame]
  simp only [hrem]

theorem openSessionEffect_accepted {r : ReqPtr} {c : ConnPtr}
    (hacc : .locReqAccepted r c pdu' ∈ (a.openSessionEffect L io p connId pdu).acts) :
    r = a.next.req ∧ c = a.next.conn ∧ pdu' = pdu := by
  have hrc : Act.locReqAccepted r c pdu' = .locReqAccepted a.next.req a.next.conn pdu := by
    by_cases hta : ∃ ta, pdu.apdu = some (.taLayer3 ta)
    · obtain ⟨ta, hta⟩ := hta
      rw [openSessionEffect_answered hta] at hacc
      simp only [Effect.acts_append, Effect.acts_request, Effect.acts_act, List.append_assoc,
        List.mem_append, List.mem_singleton] at hacc
      rcases hacc with hacc | hacc | hacc | hacc | hacc | hacc
      · cases hacc
      · exact absurd (Effect.gotTa_answers hacc) id
      · cases hacc
      · exact hacc
      · cases hacc
      · cases hacc
    · rw [openSessionEffect_pending fun ta h => hta ⟨ta, h⟩] at hacc
      simp only [Effect.acts_append, Effect.acts_request, Effect.acts_act, List.append_assoc,
        List.mem_append, List.mem_singleton] at hacc
      rcases hacc with hacc | hacc | hacc
      · cases hacc
      · exact absurd (Effect.sendCo_answers hacc) id
      · exact hacc
  cases hrc
  exact ⟨rfl, rfl, rfl⟩

theorem bindRequest_setNet {n : Net} :
    ((a.setNet n).bindRequest L pdu).2 = (a.bindRequest L pdu).2.setNet n := by
  by_cases ht : pdu.imsi.type = .imsi
  · rw [bindRequest_imsi ht, bindRequest_imsi ht]
    unfold bind
    have hs : (a.setNet n).subscrs = a.subscrs := rfl
    rw [hs]
    cases a.subscrs.find? fun x => L.mobileIdentityCmp x.imsi pdu.imsi = 0 with
    | some x => rfl
    | none => rfl
  · rw [bindRequest_other ht, bindRequest_other ht]

theorem bindRequest_imsi_congr (h : pdu.imsi = pdu'.imsi) :
    a.bindRequest L pdu = a.bindRequest L pdu' := by
  unfold bindRequest
  rw [h]

end Service

section Paths

open Service

variable {L : Libosmo} {io io' : Io} {a a' : Service} {n : UInt16} {ta : UInt8} {q : SmlcLocReq}
  {x : LbConn} {l2 l2' : List UInt8} {w' : World} {r : ReqPtr} {c : ConnPtr} {connId : ConnId}
  {addr : SccpAddr} {pdu : PerformLocReq}

theorem GetsTa.session (hq : GetsTa L io n ta a.world q x l2 w') (h : a.WF) :
    ∃ s ∈ a.sessions, q = s.locReq ∧ x = s.lbConn ∧ L.msg l2 = .ending (.ta n ta) := by
  obtain ⟨s, hs, rfl⟩ := List.mem_map.mp hq.locReq
  obtain ⟨t, ht, rfl⟩ := List.mem_map.mp hq.lbConn
  have hreq : t.req = s.req := Option.some.inj hq.pending
  obtain rfl : t = s := List.inj_on_of_nodup_map h.reqs ht hs hreq
  refine ⟨t, ht, rfl, rfl, ?_⟩
  rcases hq.bsslap with hd | hd
  · rw [Libosmo.msg, hd]
    rfl
  · rw [Libosmo.msg, hd]
    rfl

theorem Accepts.opened (hu : Accepts L io pdu a.world connId addr l2 r c w') (h : a.WF)
    (hr : StepRecord L a ⟨.scu (.nConnect connId addr l2), io⟩ w' a') :
    r = a.next.req ∧ c = a.next.conn ∧
    (∃ n n', a' = (((a.peer L addr).2.setNet n).openSession L io (a.peer L addr).1.ptr connId
      pdu).setNet n') ∧
    a.effect L ⟨.scu (.nConnect connId addr l2), io⟩ = .msgb ++ (.act (.connResp connId)
      ++ (.act (.peerDispatch (a.peer L addr).1.ptr .ready .msgUpCoInitial)
        ++ a.openSessionEffect L io (a.peer L addr).1.ptr connId pdu)) := by
  have hacc := (hr.mem_iff rfl).mp hu.accepted
  obtain ⟨connId', addr', l2', acts, hev, hl2, hc, -, hout, hmem⟩ :=
    step_accepted h hr.step hacc
  cases hev
  obtain ⟨hx, hm, -⟩ := hout.accepted hmem
  obtain ⟨ha', he⟩ := step_connect_request hl2 hc hx hm hr.step
  have hopen : .locReqAccepted r c pdu ∈ (a.openSessionEffect L io (a.peer L addr).1.ptr connId
      pdu).acts := by
    rw [he] at hacc
    simpa using hacc
  obtain ⟨hreq, hconn, -⟩ := openSessionEffect_accepted hopen
  exact ⟨hreq, hconn, ha', he⟩

/-- What one step leaves of a session that it has ended. -/
theorem ends_of_count {w : World} (hreq : ∀ t ∈ a'.sessions, t.req ≠ r)
    (hconn : ∀ t ∈ a'.sessions, t.conn ≠ c)
    (hcount : ∀ act ∈ [Act.locReqCleanup r, .disconn connId, .connFree c],
      (newActs w a'.world).count act = 1) : w.Ends r c connId a'.world where
  locReq := world_locReq?_none.mpr hreq
  lbConn := by simpa [World.lbConn?, KeyedList.lookup_eq_none_iff, world, Session.lbConn]
    using hconn
  cleanup := hcount _ (by simp)
  disconn := hcount _ (by simp)
  free := hcount _ (by simp)

/-- The path on which the TA is asked for. -/
theorem step_queried {s : Session} {k : Ending} (h : a.WF) (hs : s ∈ a.sessions)
    (hm : L.msg l2 = .ending k) (hr : StepRecord L a ⟨.scu (.nData s.connId l2), io⟩ w' a') :
    a.world.Ends s.req s.conn s.connId w' ∧ responses s.req (newActs a.world w')
      = (Effect.answer L io a.net.scu a.cellLocations s k).responses s.req := by
  obtain ⟨⟨n, ha'⟩, he⟩ := step_data_ending h hs hm hr.step
  have hleft : ∀ t ∈ a'.sessions, t ∈ a.sessions ∧ t.conn ≠ s.conn := by
    intro t ht
    rw [ha'] at ht
    exact KeyedList.mem_remove.mp ht
  have hreq : ∀ t ∈ a'.sessions, t.req ≠ s.req := by
    intro t ht heq
    obtain ⟨ht, hne⟩ := hleft t ht
    exact hne (by rw [List.inj_on_of_nodup_map h.reqs ht hs heq])
  have hcount : ∀ act, ¬act.Answers s → act ≠ .peerDispatch s.peer .ready .msgUpCo →
      (a.effect L ⟨.scu (.nData s.connId l2), io⟩).acts.count act
        = [Act.locReqCleanup s.req, .disconn s.connId, .connFree s.conn].count act := by
    intro act hact hne
    rw [he, ← count_finishEffect hact]
    exact List.count_cons_of_ne hne.symm
  constructor
  · obtain rfl := hr.world
    apply ends_of_count hreq (fun t ht => (hleft t ht).2)
    intro act hact
    simp only [List.mem_cons, List.not_mem_nil, or_false] at hact
    rcases hact with rfl | rfl | rfl
    · rw [hr.count_eq rfl, hcount _ (by simp [Act.Answers]) (by simp)]
      simp
    · rw [hr.count_eq rfl, hcount _ (by simp [Act.Answers]) (by simp)]
      simp
    · rw [hr.count_eq rfl, hcount _ (by simp [Act.Answers]) (by simp)]
      simp
  · rw [responses_newActs hr, he]
    simp only [Effect.responses_append, Effect.responses_msgb, finishEffect,
      Effect.responses_ended, List.append_nil, List.nil_append]
    rw [Effect.responses_act (by simp [Act.told])]
    rfl

theorem acts_immediate {p : PeerPtr} {io : Io} {i : Input} (hta : pdu.apdu = some (.taLayer3 ta))
    (he : a.effect L i = .msgb ++ (.act (.connResp connId)
      ++ (.act (.peerDispatch p .ready .msgUpCoInitial)
        ++ a.openSessionEffect L io p connId pdu))) :
    let s : Session := ⟨a.next.conn, connId, p, none, a.next.req, pdu⟩
    (a.effect L i).acts = [.connResp connId, .peerDispatch p .ready .msgUpCoInitial,
      .locReqRx s.conn (some .ready)]
      ++ ((Effect.gotTa L io a.net.scu a.cellLocations s pdu.cellId ta).acts
        ++ [.locReqCleanup s.req, .locReqAccepted s.req s.conn pdu, .disconn connId,
          .connFree s.conn]) := by
  intro s
  rw [he, openSessionEffect_answered hta]
  simp only [Effect.acts_append, Effect.acts_msgb, Effect.acts_act, Effect.acts_request,
    List.append_assoc, List.nil_append]
  rfl

/-- The path on which the TA comes with the request. -/
theorem step_immediate (hu : Accepts L io pdu a.world connId addr l2 r c w') (h : a.WF)
    (hta : pdu.apdu = some (.taLayer3 ta))
    (hr : StepRecord L a ⟨.scu (.nConnect connId addr l2), io⟩ w' a') :
    a.world.Ends r c connId w' ∧ ∃ s, s.req = r ∧ responses r (newActs a.world w')
      = (Effect.gotTa L io a.net.scu a.cellLocations s pdu.cellId ta).responses r := by
  obtain ⟨rfl, rfl, ⟨n, n', ha'⟩, he⟩ := hu.opened h hr
  let p := (a.peer L addr).1.ptr
  let s : Session := ⟨a.next.conn, connId, p, none, a.next.req, pdu⟩
  have hcb : ∀ t ∈ ((a.peer L addr).2.setNet n).sessions,
      t.conn < ((a.peer L addr).2.setNet n).next.conn := (h.peer.setNet n).connBound
  rw [openSession_answered hta, withSession_drop hcb] at ha'
  have hold : ∀ t ∈ a'.sessions, t ∈ a.sessions := by
    intro t ht
    rw [ha'] at ht
    exact (peer_sessions L a addr) ▸ ht
  let before : List Act := [.connResp connId, .peerDispatch p .ready .msgUpCoInitial,
    .locReqRx s.conn (some .ready)]
  let after : List Act := [.locReqCleanup s.req, .locReqAccepted s.req s.conn pdu, .disconn connId,
    .connFree s.conn]
  let got := Effect.gotTa L io a.net.scu a.cellLocations s pdu.cellId ta
  have hacts : (a.effect L ⟨.scu (.nConnect connId addr l2), io⟩).acts
      = before ++ (got.acts ++ after) := acts_immediate hta he
  have hcount : ∀ act, ¬act.Answers s → act ∉ before →
      (a.effect L ⟨.scu (.nConnect connId addr l2), io⟩).acts.count act = after.count act := by
    intro act hact hne
    have hgot : got.acts.count act = 0 :=
      List.count_eq_zero.mpr fun hmem => hact (Effect.gotTa_answers hmem)
    rw [hacts, List.count_append, List.count_append, List.count_eq_zero.mpr hne, hgot]
    simp only [Nat.zero_add]
  refine ⟨?_, s, rfl, ?_⟩
  · obtain rfl := hr.world
    refine ends_of_count (fun t ht => Nat.ne_of_lt (h.reqBound t (hold t ht)))
      (fun t ht => Nat.ne_of_lt (h.connBound t (hold t ht))) fun act hact => ?_
    simp only [List.mem_cons, List.not_mem_nil, or_false] at hact
    rcases hact with rfl | rfl | rfl
    · rw [hr.count_eq rfl, hcount _ (by simp [Act.Answers]) (by simp [before])]
      simp [after, s]
    · rw [hr.count_eq rfl, hcount _ (by simp [Act.Answers]) (by simp [before])]
      simp [after, s]
    · rw [hr.count_eq rfl, hcount _ (by simp [Act.Answers]) (by simp [before])]
      simp [after, s]
  · rw [responses_newActs hr, he, openSessionEffect_answered hta]
    simp only [Effect.responses_append, Effect.responses_msgb, Effect.responses_request,
      List.nil_append]
    rw [Effect.responses_act (by simp [Act.told]), Effect.responses_act (by simp [Act.told]),
      Effect.responses_act (by simp [Act.told]), Effect.responses_act (by simp [Act.told]),
      Effect.responses_act (by simp [Act.told]), Effect.responses_act (by simp [Act.told])]
    simp only [List.nil_append, List.append_nil]
    rfl

/-- Both paths from one state lead to one state, as far as the objects go. -/
theorem paths_state {s : Session} {a₁ a₂ a₃ : Service} {pdu' : PerformLocReq}
    {w₁ w₃ : World} {r' : ReqPtr} {c' : ConnPtr} (h : a.WF)
    (hasks : Accepts L io pdu a.world connId addr l2 s.req c w₁)
    (hr₁ : StepRecord L a ⟨.scu (.nConnect connId addr l2), io⟩ w₁ a₁)
    (hno : ∀ ta, pdu.apdu ≠ some (.taLayer3 ta)) (hs : s ∈ a₁.sessions)
    (hdrop : ∃ n, a₂ = a₁.drop s n)
    (hhas : Accepts L io' pdu' a.world connId addr l2' r' c' w₃)
    (hr₃ : StepRecord L a ⟨.scu (.nConnect connId addr l2'), io'⟩ w₃ a₃)
    (hta : pdu'.apdu = some (.taLayer3 ta)) (himsi : pdu.imsi = pdu'.imsi) :
    a₂.setNet a₃.net = a₃ := by
  obtain ⟨hreq, -, ⟨n₁, n₁', ha₁⟩, -⟩ := hasks.opened h hr₁
  obtain ⟨-, -, ⟨n₃, n₃', ha₃⟩, -⟩ := hhas.opened h hr₃
  obtain ⟨n₂, ha₂⟩ := hdrop
  let b := (a.peer L addr).2
  let p := (a.peer L addr).1.ptr
  have hcb : ∀ n, ∀ t ∈ (b.setNet n).sessions, t.conn < (b.setNet n).next.conn :=
    fun n => (h.peer.setNet n).connBound
  rw [openSession_pending hno] at ha₁
  have hnew : s = (b.setNet n₁).newSession L p connId pdu := by
    have hmem : (b.setNet n₁).newSession L p connId pdu ∈ a₁.sessions := by
      rw [ha₁]
      exact List.mem_cons_self
    apply List.inj_on_of_nodup_map hr₁.wf.reqs hs hmem
    rw [hreq]
    exact (peer_parts L a addr).2.1.symm
  have hdropped : a₂ = ((b.setNet n₁).withSession L p connId pdu n₁').drop
      ((b.setNet n₁).newSession L p connId pdu) n₂ := by
    rw [ha₂, ha₁, hnew]
    rfl
  rw [openSession_answered hta, withSession_drop (hcb n₃)] at ha₃
  rw [withSession_drop (hcb n₁)] at hdropped
  rw [hdropped, ha₃, bindRequest_setNet, bindRequest_setNet, bindRequest_imsi_congr himsi]
  rfl

theorem paths_objects {io₀ : Io} {l2₀ : List UInt8} {u' : World} (h : a.WF) {w : World}
    (hq : GetsTa L io n ta w q x l2 w') (hu : Accepts L io' pdu a.world connId addr l2' r c u')
    (hasks : Accepts L io₀ q.req a.world connId addr l2₀ q.ptr x.ptr w)
    (hno : ∀ ta, q.req.apdu ≠ some (.taLayer3 ta)) (hta : pdu.apdu = some (.taLayer3 ta))
    (himsi : q.req.imsi = pdu.imsi) : { w' with net := u'.net } = u' := by
  obtain ⟨a₁, hr₁⟩ := step_record L h hasks.step
  obtain ⟨a₃, hr₃⟩ := step_record L h hu.step
  obtain rfl := hr₁.world
  obtain ⟨s, hs, rfl, rfl, hm⟩ := hq.session hr₁.wf
  obtain ⟨a₂, hr₂⟩ := step_record L hr₁.wf hq.step
  have hdrop := (step_data_ending hr₁.wf hs hm hr₂.step).1
  have heq : a₂.setNet a₃.net = a₃ := paths_state h hasks hr₁ hno hs hdrop hu hr₃ hta himsi
  obtain rfl := hr₂.world
  obtain rfl := hr₃.world
  show (a₂.setNet a₃.net).world = a₃.world
  rw [heq]

end Paths

/-- A TA Response or a BSSLAP Reset that answers a request leads to the response, and to the end
of the request and its connection, that a request with that TA and CI leads to while the same
cells are configured. From one state, both lead to the same objects. -/
theorem paths_agree (L : Libosmo) (hcgi : L.ConvertsCi) {io io' : Io}
    (hio : io'.bssapLeEnc = io.bssapLeEnc) {n : UInt16} {ta : UInt8} {w w' u u' : World}
    {q : SmlcLocReq} {x : LbConn} {l2 l2' : List UInt8} {pdu : PerformLocReq} {connId : ConnId}
    {addr : SccpAddr} {r : ReqPtr} {c : ConnPtr} (hq : GetsTa L io n ta w q x l2 w')
    (hu : Accepts L io' pdu u connId addr l2' r c u') (hci : q.req.cellId.ci?.isSome = true)
    (hcell : pdu.cellId = q.req.cellId.withCi n) (hta : pdu.apdu = some (.taLayer3 ta))
    (hcells : u.cellLocations = w.cellLocations) :
    responses q.ptr (newActs w w') = responses r (newActs u u') ∧
    w.Ends q.ptr x.ptr x.sccpConnId w' ∧ u.Ends r c connId u' ∧
    (q.req.cellId.ci? = some n → pdu.cellId = q.req.cellId) ∧
    ∀ io₀ l2₀, Accepts L io₀ q.req u connId addr l2₀ q.ptr x.ptr w →
      (∀ ta, q.req.apdu ≠ some (.taLayer3 ta)) → q.req.imsi = pdu.imsi →
      { w' with net := u'.net } = u' := by
  obtain ⟨-, b, -, hb, rfl⟩ := hu.reachable.service
  obtain ⟨b', hrb⟩ := step_record L hb hu.step
  obtain ⟨hends, s', hs', hresp'⟩ := step_immediate hu hb hta hrb
  refine ⟨?_, ?_, hends, fun hown => hcell.trans (CellId.withCi_self hown), ?_⟩
  · obtain ⟨-, a, -, ha, rfl⟩ := hq.reachable.service
    obtain ⟨s, hs, rfl, rfl, hm⟩ := hq.session ha
    obtain ⟨a', hra⟩ := step_record L ha hq.step
    have hk : updateCi L s.pdu.cellId n.toInt16 = pdu.cellId :=
      (updateCi_withCi hcgi hci).trans hcell.symm
    have hstore : b.cellLocations = a.cellLocations := hcells
    apply (step_queried ha hs hm hra).2.trans
    rw [hresp', ← hs', hstore, ← hk]
    exact Effect.responses_gotTa_congr hio
  · obtain ⟨-, a, -, ha, rfl⟩ := hq.reachable.service
    obtain ⟨s, hs, rfl, rfl, hm⟩ := hq.session ha
    obtain ⟨a', hra⟩ := step_record L ha hq.step
    exact (step_queried ha hs hm hra).1
  · intro io₀ l2₀ hasks hno himsi
    exact paths_objects hb hq hu hasks hno hta himsi

/-- Both paths, from the state in which the peer has done its RESET. The TA Response names
another CI than the request. -/
theorem paths_agree_two :
    let is : List Input := [⟨.vty (.lacCi "23" "42" "-45" "-90"), Sample.io⟩,
      ⟨.vty (.cgi "262" "42" "23" "43" "45" "90"), Sample.io⟩, Sample.resetFrom Sample.addrA]
    let asked := Sample.after (is ++ [Sample.connect 1 Sample.addrA Sample.msgRequestA])
    let queried := Sample.after (is ++ [Sample.connect 1 Sample.addrA Sample.msgRequestA,
      Sample.data 1 Sample.msgTaResponse43])
    let immediate := Sample.after (is ++ [Sample.connect 1 Sample.addrA Sample.msgRequestTa43A])
    responses 0 (newActs asked queried) = responses 0 (newActs (Sample.after is) immediate) ∧
    responses 0 (newActs asked queried) = [⟨some [16, 64, 0, 0, 64, 0, 0, 42], none⟩] ∧
    { queried with net := immediate.net } = immediate := by
  intro is asked queried immediate
  let q : SmlcLocReq := ⟨0, ⟨.waitTa, false, true⟩, some 0, Sample.request Sample.imsiA, false, 0,
    Sample.cell, none⟩
  let x : LbConn := ⟨0, [(.smlcLocReq, 1)], some 0, 1, false, some 0, some 0⟩
  have hasks : Accepts Sample.libosmo Sample.io q.req (Sample.after is) 1 Sample.addrA
      Sample.msgRequestA 0 0 asked :=
    ⟨Sample.reachable (by decide +kernel), Sample.step_after (by decide +kernel), by decide +kernel⟩
  have hq : GetsTa Sample.libosmo Sample.io 43 1 asked q x Sample.msgTaResponse43 queried :=
    ⟨Sample.reachable (by decide +kernel), by decide +kernel, by decide +kernel, rfl,
      .inl (by decide +kernel), Sample.step_after (by decide +kernel)⟩
  have hu : Accepts Sample.libosmo Sample.io ⟨.lacAndCi 23 43, Sample.imsiA, some (.taLayer3 1)⟩
      (Sample.after is) 1 Sample.addrA Sample.msgRequestTa43A 0 0 immediate :=
    ⟨Sample.reachable (by decide +kernel), Sample.step_after (by decide +kernel), by decide +kernel⟩
  have hpaths := paths_agree Sample.libosmo Sample.libosmo_convertsKinds.toConvertsCi rfl hq hu rfl
    rfl rfl (by decide +kernel)
  exact ⟨hpaths.1, by decide +kernel,
    hpaths.2.2.2.2 Sample.io Sample.msgRequestA hasks nofun rfl⟩

end OsmoSmlc
