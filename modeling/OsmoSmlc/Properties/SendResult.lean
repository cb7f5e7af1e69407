import OsmoSmlc.Properties.TwoPaths

/-! Whether a failed send is noticed. The result of the SCCP layer ends at the state machine of
the peer, so that all that is reported is that the message was encoded. -/
namespace OsmoSmlc
open Osmo

/-- The SCCP layer has accepted a message between two states. -/
def Accepted (w w' : World) (connId : ConnId) (pdu : BssmapLePdu) : Prop :=
  ∃ msg rc, 0 ≤ rc ∧ .sapDown (.nData connId (.bssmapLe pdu)) msg rc ∈ newActs w w'

/-- What the SCCP layer answers, if there is one. -/
def World.SccpTakes (w : World) (io : Io) (connId : ConnId) (pdu : BssmapLePdu) : Prop :=
  w.net.scu = true ∧ 0 ≤ io.sapDown (.nData connId (.bssmapLe pdu))

/-- A request that got a location estimate got it over the SCCP layer, or has failed. -/
def EstimateNoticed (w w' : World) (r : ReqPtr) (connId : ConnId) : Prop :=
  ∀ raw, ⟨some raw, none⟩ ∈ responses r (newActs w w') →
    Accepted w w' connId (.performLocResp ⟨some raw, none⟩) ∨
    ∃ cause, ⟨none, some cause⟩ ∈ responses r (newActs w w')

/-- The SCCP layer takes the estimate for a cell and a TA, where there is one to be sent. -/
def World.EstimateTaken (L : Libosmo) (w : World) (io : Io) (connId : ConnId) (k : CellId)
    (ta : UInt8) : Prop :=
  ∀ raw, Net.estimate L w.cellLocations k ta = some raw →
    io.bssapLeEnc (.bssmapLe (.performLocResp ⟨some raw, none⟩)) = true →
    w.SccpTakes io connId (.performLocResp ⟨some raw, none⟩)

/-- Neither a response nor anything for the SCCP layer. -/
def Act.Quiet (act : Act) : Prop :=
  (∀ req msg rc, act ≠ .sapDown req msg rc) ∧ ∀ r c resp, act.told ≠ some (r, .response c resp)

section Quiet

variable {p : PeerPtr} {st : LbPeerState} {ev : LbPeerEvent} {connId : ConnId} {c : ConnPtr}
  {r : ReqPtr} {pdu : PerformLocReq}

theorem quiet_peerDispatch : (Act.peerDispatch p st ev).Quiet := ⟨by simp, by simp [Act.told]⟩
theorem quiet_connResp : (Act.connResp connId).Quiet := ⟨by simp, by simp [Act.told]⟩
theorem quiet_disconn : (Act.disconn connId).Quiet := ⟨by simp, by simp [Act.told]⟩
theorem quiet_connFree : (Act.connFree c).Quiet := ⟨by simp, by simp [Act.told]⟩
theorem quiet_locReqRx {o : Option LbPeerState} : (Act.locReqRx c o).Quiet :=
  ⟨by simp, by simp [Act.told]⟩
theorem quiet_locReqCleanup : (Act.locReqCleanup r).Quiet := ⟨by simp, by simp [Act.told]⟩
theorem quiet_locReqAccepted : (Act.locReqAccepted r c pdu).Quiet := ⟨by simp, by simp [Act.told]⟩

end Quiet

namespace Effect

variable {L : Libosmo} {io : Io} {scu : Bool} {cells : CellStore} {s : Session} {e f : Effect}
  {k : CellId} {ta : UInt8} {pdu : BssmapLePdu} {connId : ConnId} {r : ReqPtr}

/-- The effect shows that a message was accepted. -/
def Takes (e : Effect) (connId : ConnId) (pdu : BssmapLePdu) : Prop :=
  ∃ rc, 0 ≤ rc ∧ .sapDown (.nData connId (.bssmapLe pdu)) 0 rc ∈ e.acts

/-- What `e` shows beyond `f` is quiet. -/
def Around (e f : Effect) : Prop :=
  ∃ before after, e.acts = before ++ (f.acts ++ after) ∧ ∀ act ∈ before ++ after, act.Quiet

theorem Around.takes (h : e.Around f) : e.Takes connId pdu ↔ f.Takes connId pdu := by
  obtain ⟨before, after, hacts, hquiet⟩ := h
  have hmem : ∀ rc, .sapDown (.nData connId (.bssmapLe pdu)) 0 rc ∈ e.acts ↔
      .sapDown (.nData connId (.bssmapLe pdu)) 0 rc ∈ f.acts := by
    intro rc
    rw [hacts, List.mem_append, List.mem_append]
    refine ⟨?_, fun hf => .inr (.inl hf)⟩
    rintro (hb | hf | ha)
    · exact absurd rfl ((hquiet _ (List.mem_append_left _ hb)).1 _ _ _)
    · exact hf
    · exact absurd rfl ((hquiet _ (List.mem_append_right _ ha)).1 _ _ _)
  simp only [Takes, hmem]

theorem Around.responses (h : e.Around f) : e.responses r = f.responses r := by
  obtain ⟨before, after, hacts, hquiet⟩ := h
  have hnone : ∀ l : List Act, (∀ act ∈ l, act ∈ before ++ after) →
      (ofReq r (l.filterMap Act.told)).filterMap Told.response? = [] := by
    refine fun l hl => List.filterMap_eq_nil_iff.mpr fun t ht => ?_
    obtain ⟨act, hact, htold⟩ := mem_toldOf.mp ht
    cases t with
    | response c resp => exact absurd htold ((hquiet act (hl act hact)).2 r c resp)
    | _ => rfl
  unfold Effect.responses told
  rw [hacts]
  simp only [List.filterMap_append, ofReq_append, hnone before fun act => List.mem_append_left _,
    hnone after fun act => List.mem_append_right _, List.nil_append, List.append_nil]

theorem takes_down {req : ScuReq} {rc : Int} :
    .sapDown req 0 rc ∈ (down io scu req).acts ↔ scu = true ∧ rc = io.sapDown req := by
  unfold down
  cases scu with
  | false => simp
  | true => simp

theorem takes_sendCo (henc : io.bssapLeEnc (.bssmapLe pdu) = true) :
    (sendCo io scu s pdu).Takes s.connId pdu ↔
      scu = true ∧ 0 ≤ io.sapDown (.nData s.connId (.bssmapLe pdu)) := by
  unfold Takes sendCo
  rw [if_pos henc]
  simp only [acts_append, acts_enc, acts_msgb, acts_act, List.nil_append, List.mem_append,
    List.mem_cons, List.not_mem_nil, or_false, reduceCtorEq, false_or, takes_down]
  constructor
  · rintro ⟨rc, hrc, hscu, rfl⟩
    exact ⟨hscu, hrc⟩
  · rintro ⟨hscu, hrc⟩
    exact ⟨_, hrc, hscu, rfl⟩

theorem mem_failed {cause : LcsCause} {resp : PerformLocResp}
    (h : resp ∈ (failed io scu s cause).responses s.req) : resp = ⟨none, some cause⟩ := by
  rw [failed, responses_sendCo_own] at h
  split at h
  · exact List.mem_singleton.mp h
  · cases h

/-- The estimate is noticed to be lost, or not lost: if the SCCP layer takes it. -/
theorem gotTa_noticed :
    (∀ raw, ⟨some raw, none⟩ ∈ (gotTa L io scu cells s k ta).responses s.req →
      (gotTa L io scu cells s k ta).Takes s.connId (.performLocResp ⟨some raw, none⟩) ∨
      ∃ cause, ⟨none, some cause⟩ ∈ (gotTa L io scu cells s k ta).responses s.req) ↔
    ∀ raw, Net.estimate L cells k ta = some raw →
      io.bssapLeEnc (.bssmapLe (.performLocResp ⟨some raw, none⟩)) = true →
      scu = true ∧ 0 ≤ io.sapDown (.nData s.connId (.bssmapLe (.performLocResp ⟨some raw, none⟩))) := by
  unfold gotTa
  cases Net.estimate L cells k ta with
  | none =>
    refine ⟨fun _ => nofun, fun _ raw hraw => ?_⟩
    cases mem_failed hraw
  | some raw =>
    dsimp only
    cases henc : io.bssapLeEnc (.bssmapLe (.performLocResp ⟨some raw, none⟩)) with
    | true =>
      have hresp : (sendCo io scu s (.performLocResp ⟨some raw, none⟩)).responses s.req
          = [⟨some raw, none⟩] := by
        rw [responses_sendCo_own, if_pos henc]
      rw [if_pos rfl, hresp]
      constructor
      · intro h raw' hraw' _
        obtain rfl := Option.some.inj hraw'
        rcases h raw (List.mem_singleton_self _) with htakes | ⟨cause, hcause⟩
        · exact (takes_sendCo henc).mp htakes
        · cases List.mem_singleton.mp hcause
      · intro h raw' hraw'
        cases List.mem_singleton.mp hraw'
        exact .inl ((takes_sendCo henc).mpr (h raw rfl henc))
    | false =>
      rw [if_neg Bool.false_ne_true]
      constructor
      · intro _ raw' hraw' henc'
        obtain rfl := Option.some.inj hraw'
        cases henc.symm.trans henc'
      · intro _ raw' hraw'
        rw [responses_append] at hraw'
        cases mem_failed hraw'

end Effect

namespace Service

open Effect

variable {L : Libosmo} {a : Service} {i : Input} {s : Session} {k : Ending}

theorem around_finishEffect {io : Io} {e : Effect} (before after : List Act)
    (he : e.acts = before ++ ((a.finishEffect L io s k).acts ++ after))
    (hquiet : ∀ act ∈ before ++ after, act.Quiet) :
    e.Around (answer L io a.net.scu a.cellLocations s k) := by
  refine ⟨before, [.locReqCleanup s.req, .disconn s.connId, .connFree s.conn] ++ after, ?_, ?_⟩
  · rw [he, finishEffect_acts, List.append_assoc]
  · intro act hact
    rw [List.mem_append, List.mem_append] at hact
    rcases hact with hact | hact | hact
    · exact hquiet act (List.mem_append_left _ hact)
    · simp only [List.mem_cons, List.not_mem_nil, or_false] at hact
      rcases hact with rfl | rfl | rfl
      · exact quiet_locReqCleanup
      · exact quiet_disconn
      · exact quiet_connFree
    · exact hquiet act (List.mem_append_right _ hact)

theorem ending?_eq {m : Msg} (h : m.ending? = some k) : m = .ending k := by
  cases m with
  | ending k' =>
    cases h
    rfl
  | _ => cases h

/-- However an event ends a request, all that counts is its answer. -/
theorem effect_around (h : a.WF) (hs : s ∈ a.sessions)
    (hk : i.ev.endingFor L s.connId s.req = some k) :
    (a.effect L i).Around (answer L i.io a.net.scu a.cellLocations s k) := by
  obtain ⟨ev, io⟩ := i
  let up : Act := .peerDispatch s.peer .ready .msgUpCo
  cases ev with
  | scu prim =>
    cases prim with
    | nData connId l2 =>
      simp only [Event.endingFor] at hk
      split at hk
      · rename_i hid
        subst hid
        refine around_finishEffect [up] [] ?_ ?_
        · show (a.dataEffect L io s.connId (L.msg l2)).acts = _
          rw [ending?_eq hk, (data_some (find_connId h hs)).2, List.append_nil]
          rfl
        · intro act hact
          rw [List.mem_singleton.mp hact]
          exact quiet_peerDispatch
      · cases hk
    | nDisconnect connId l2 =>
      simp only [Event.endingFor] at hk
      split at hk
      · rename_i hid
        obtain ⟨rfl, hl⟩ := hid
        refine around_finishEffect [up] [.disconn s.connId] ?_ ?_
        · have hprim : a.rxPrimEffect L io (.nDisconnect s.connId l2)
              = a.dataEffect L io s.connId (L.msg l2) ++ .act (.disconn s.connId) := by
            simp only [rxPrimEffect, if_pos hl]
          show (Effect.msgb ++ a.rxPrimEffect L io (.nDisconnect s.connId l2)).acts = _
          rw [hprim, ending?_eq hk, (data_some (find_connId h hs)).2]
          rfl
        · intro act hact
          simp only [List.singleton_append, List.mem_cons, List.not_mem_nil, or_false] at hact
          rcases hact with rfl | rfl
          · exact quiet_peerDispatch
          · exact quiet_disconn
      · cases hk
    | _ => simp [Event.endingFor] at hk
  | locReqTimer r =>
    simp only [Event.endingFor] at hk
    split at hk
    · rename_i hid
      subst hid
      cases hk
      refine around_finishEffect [] [] ?_ (by simp)
      show (a.locReqTimeoutEffect L io s.req).acts = _
      rw [(locReqTimeout_some (find_req h hs)).2, List.append_nil]
      rfl
    · cases hk
  | _ => simp [Event.endingFor] at hk

end Service

section Noticed

open Service

variable {L : Libosmo} {io : Io} {a a' : Service} {i : Input} {w' : World} {s : Session}
  {k : CellId} {ta : UInt8} {pdu : BssmapLePdu}

theorem accepted_iff {e : Effect} {w w' : World} {connId : ConnId} {acts : List Act}
    (hlog : w'.net.log = w.net.log ++ acts) (hseen : acts.filterMap Act.seen = e.acts) :
    Accepted w w' connId pdu ↔ e.Takes connId pdu := by
  unfold Accepted Effect.Takes
  rw [newActs_eq hlog, ← hseen]
  simp only [mem_seen_sapDown]
  constructor
  · rintro ⟨msg, rc, hrc, hmem⟩
    exact ⟨rc, hrc, msg, hmem⟩
  · rintro ⟨rc, hrc, msg, hmem⟩
    exact ⟨msg, rc, hrc, hmem⟩

/-- What is reported, and what has become of the message. -/
theorem send_reported (h : a.WF) (hs : s ∈ a.sessions) :
    ∃ rc w', lbConnSendBssmapLe io s.conn pdu a.world = .ok (rc, w') ∧
      ((rc = 0 → io.bssapLeEnc (.bssmapLe pdu) = true ∧ Accepted a.world w' s.connId pdu) ↔
        (io.bssapLeEnc (.bssmapLe pdu) = true → a.world.SccpTakes io s.connId pdu)) := by
  have honline : OnLine a.world s := (world_shows h).onLine h hs
  have hd : a.net.Does (.sendCo io a.net.scu s pdu) (a.net.sendCo io s pdu).2 := Net.sendCo_does
  obtain ⟨acts, hlog, hseen⟩ := hd.log
  refine ⟨_, _, lbConnSendBssmapLe_onLine io honline, ?_⟩
  show ((a.net.sendCo io s pdu).1 = 0 → _) ↔ _
  rw [Net.sendCo_rc]
  cases henc : io.bssapLeEnc (.bssmapLe pdu) with
  | true =>
    have hiff : Accepted a.world (a.world.setNet (a.net.sendCo io s pdu).2) s.connId pdu
        ↔ a.world.SccpTakes io s.connId pdu :=
      (accepted_iff hlog hseen).trans (Effect.takes_sendCo henc)
    exact ⟨fun hp _ => hiff.mp (hp rfl).2, fun hp _ => ⟨rfl, hiff.mpr (hp rfl)⟩⟩
  | false => exact ⟨fun _ => nofun, fun _ hrc => absurd hrc (by decide)⟩

/-- What is noticed in a step that answers a request for which the TA is known. -/
theorem noticed_iff (hr : StepRecord L a i w' a')
    (hgot : (a.effect L i).Around (Effect.gotTa L i.io a.net.scu a.cellLocations s k ta)) :
    EstimateNoticed a.world w' s.req s.connId ↔ a.world.EstimateTaken L i.io s.connId k ta := by
  refine Iff.trans ?_ Effect.gotTa_noticed
  have hacc : ∀ pdu, Accepted a.world w' s.connId pdu
      ↔ (Effect.gotTa L i.io a.net.scu a.cellLocations s k ta).Takes s.connId pdu :=
    fun pdu => (accepted_iff hr.log hr.seen).trans hgot.takes
  unfold EstimateNoticed
  rw [responses_newActs hr, hgot.responses]
  simp only [hacc]
  exact Iff.rfl

/-- A request that brings its TA is answered while it is accepted. -/
theorem Accepts.around {pdu : PerformLocReq} {connId : ConnId} {addr : SccpAddr} {l2 : List UInt8}
    {r : ReqPtr} {c : ConnPtr} (hu : Accepts L io pdu a.world connId addr l2 r c w') (h : a.WF)
    (hr : StepRecord L a ⟨.scu (.nConnect connId addr l2), io⟩ w' a')
    (hta : pdu.apdu = some (.taLayer3 ta)) : ∃ s : Session, s.req = r ∧ s.connId = connId ∧
      (a.effect L ⟨.scu (.nConnect connId addr l2), io⟩).Around
        (Effect.gotTa L io a.net.scu a.cellLocations s pdu.cellId ta) := by
  obtain ⟨hreq, -, -, he⟩ := hu.opened h hr
  refine ⟨_, hreq.symm, rfl, _, _, acts_immediate hta he, ?_⟩
  intro act hact
  simp only [List.cons_append, List.nil_append, List.mem_cons, List.not_mem_nil, or_false] at hact
  rcases hact with rfl | rfl | rfl | rfl | rfl | rfl | rfl
  · exact quiet_connResp
  · exact quiet_peerDispatch
  · exact quiet_locReqRx
  · exact quiet_locReqCleanup
  · exact quiet_locReqAccepted
  · exact quiet_disconn
  · exact quiet_connFree

end Noticed

/-- What is reported as sent was accepted by the SCCP layer, and an estimate that ends a request
was accepted or the request has failed, exactly where the SCCP layer takes what is encoded. -/
theorem send_noticed_iff (L : Libosmo) {w : World} (hw : ReachableWorld L w) :
    (∀ x ∈ w.lbConns, ∀ io pdu, ∃ rc w', lbConnSendBssmapLe io x.ptr pdu w = .ok (rc, w') ∧
      ((rc = 0 → io.bssapLeEnc (.bssmapLe pdu) = true ∧ Accepted w w' x.sccpConnId pdu) ↔
        (io.bssapLeEnc (.bssmapLe pdu) = true → w.SccpTakes io x.sccpConnId pdu))) ∧
    ∀ i w', step L w i = .ok w' →
      (∀ q ∈ w.locReqs, ∀ x ∈ w.lbConns, x.smlcLocReq = some q.ptr → ∀ n ta,
        i.ev.endingFor L x.sccpConnId q.ptr = some (.ta n ta) →
        (EstimateNoticed w w' q.ptr x.sccpConnId ↔ w.EstimateTaken L i.io x.sccpConnId
          (updateCi L q.latestCellId n.toInt16) ta)) ∧
      ∀ connId addr l2 r c pdu ta, i.ev = .scu (.nConnect connId addr l2) →
        .locReqAccepted r c pdu ∈ newActs w w' → pdu.apdu = some (.taLayer3 ta) →
        (EstimateNoticed w w' r connId ↔ w.EstimateTaken L i.io connId pdu.cellId ta) := by
  obtain ⟨-, a, -, h, rfl⟩ := hw.service
  refine ⟨?_, fun i w' hstep => ?_⟩
  · intro x hx io pdu
    obtain ⟨s, hs, rfl⟩ := List.mem_map.mp hx
    exact send_reported h hs
  · obtain ⟨a', hr⟩ := step_record L h hstep
    constructor
    · intro q hq x hx hqx n ta hk
      obtain ⟨s, hs, rfl⟩ := List.mem_map.mp hq
      obtain ⟨t, ht, rfl⟩ := List.mem_map.mp hx
      have hreq : t.req = s.req := Option.some.inj hqx
      obtain rfl : t = s := List.inj_on_of_nodup_map h.reqs ht hs hreq
      exact noticed_iff hr (Service.effect_around h hs hk)
    · intro connId addr l2 r c pdu ta hev hacc hta
      obtain ⟨ev, io⟩ := i
      obtain rfl : ev = _ := hev
      have hu : Accepts L io pdu a.world connId addr l2 r c w' := ⟨hw, hstep, hacc⟩
      obtain ⟨s, rfl, rfl, hgot⟩ := hu.around h hr hta
      exact noticed_iff hr hgot

/-- A message is taken, another one is reported as sent although it is not. -/
theorem send_noticed_iff_two :
    let w := Sample.after [Sample.resetFrom Sample.addrA, Sample.connect 1 Sample.addrA Sample.msgRequestA]
    (∃ rc w', lbConnSendBssmapLe Sample.io 0 .performLocAbort w = .ok (rc, w') ∧
      (rc = 0 → Accepted w w' 1 .performLocAbort)) ∧
    ∃ rc w', lbConnSendBssmapLe Sample.ioRefusing 0 .performLocAbort w = .ok (rc, w') ∧
      ¬(rc = 0 → Sample.ioRefusing.bssapLeEnc (.bssmapLe .performLocAbort) = true ∧
        Accepted w w' 1 .performLocAbort) := by
  intro w
  let x : LbConn := ⟨0, [(.smlcLocReq, 1)], some 0, 1, false, some 0, some 0⟩
  have hx : x ∈ w.lbConns := by decide +kernel
  have h := (send_noticed_iff Sample.libosmo (Sample.reachable (by decide +kernel) :
    ReachableWorld Sample.libosmo w)).1 x hx
  have hscu : w.net.scu = true := by decide +kernel
  constructor
  · obtain ⟨rc, w', hok, hiff⟩ := h Sample.io .performLocAbort
    exact ⟨rc, w', hok, fun hrc => (hiff.mpr (fun _ => ⟨hscu, by decide⟩) hrc).2⟩
  · obtain ⟨rc, w', hok, hiff⟩ := h Sample.ioRefusing .performLocAbort
    refine ⟨rc, w', hok, fun hno => ?_⟩
    have htakes := (hiff.mp hno rfl).2
    revert htakes
    decide

/-- Whether all that the SCCP layer was asked for it has refused. -/
def Act.refused : Act → Bool
  | .sapDown _ _ rc => rc < 0
  | _ => true

/-- The SCCP layer refuses a Perform Location Response that is reported as sent. -/
theorem send_noticed_refused :
    ¬ ∀ L w, ReachableWorld L w → ∀ x ∈ w.lbConns, ∀ io pdu w',
      lbConnSendBssmapLe io x.ptr pdu w = .ok (0, w') →
        io.bssapLeEnc (.bssmapLe pdu) = true ∧ Accepted w w' x.sccpConnId pdu := by
  intro h
  let w := Sample.after [Sample.resetFrom Sample.addrA, Sample.connect 1 Sample.addrA Sample.msgRequestA]
  let x : LbConn := ⟨0, [(.smlcLocReq, 1)], some 0, 1, false, some 0, some 0⟩
  let pdu : BssmapLePdu := .performLocResp ⟨none, some .systemFailure⟩
  let sent : World := match lbConnSendBssmapLe Sample.ioRefusing 0 pdu w with
    | .ok (_, w') => w'
    | .error _ => w
  have hok : lbConnSendBssmapLe Sample.ioRefusing x.ptr pdu w = .ok (0, sent) := by decide +kernel
  obtain ⟨-, msg, rc, hrc, hmem⟩ := h Sample.libosmo w (Sample.reachable (by decide +kernel)) x
    (by decide +kernel) Sample.ioRefusing pdu sent hok
  have hall : ∀ act ∈ newActs w sent, act.refused = true := by decide +kernel
  have hlt := hall _ hmem
  simp only [Act.refused, decide_eq_true_eq] at hlt
  omega

end OsmoSmlc
