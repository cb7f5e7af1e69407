import OsmoSmlc.Service.Answer

/-! The messages of a connection whose request is pending, and the expiry of its T-12:
what they leave behind shows the service after the same message. -/
namespace OsmoSmlc
open Osmo

variable (L : Libosmo) (io : Io) {w : World} {a : Service} {s : Session}

theorem World.updReq_id (r : ReqPtr) : w.updReq r id = w := by
  simp [World.ext_iff, KeyedList.update]

theorem KeepsAlive.id : KeepsAlive s.locReq s.conn id := ⟨fun _ => rfl, rfl, rfl⟩

/-- A failed request ends its session with the cause. -/
theorem smlcLocReqFail_shows (cause : LcsCause) (h : Shows w a) (hw : a.WF)
    (hs : s ∈ a.sessions) : ∃ w', smlcLocReqFail io s.req cause w = .ok ((), w') ∧
      Shows w' (a.finish L io s (.failure cause)) := by
  obtain ⟨g, hg, hf⟩ := smlcLocReqFail_term io cause (h.onLine hw hs)
    (h.locReq? hs) rfl rfl rfl
  obtain ⟨w', hterm, hsh, -⟩ := smlcLocReqTerm_shows h hw hs hg (w.net.failed io s cause)
  refine ⟨w', hf.trans hterm, ?_⟩
  rw [h.net] at hsh
  exact hsh

/-- A timing advance is answered from the cell that it names. -/
theorem smlcLocReqGotTa_shows {cellId : UInt16} {ta : UInt8} (h : Shows w a) (hw : a.WF)
    (hs : s ∈ a.sessions) : ∃ w',
      (do
        setReq s.req fun x => { x with
          taPresent := true, ta := ta, latestCellId := updateCi L x.latestCellId cellId.toInt16 }
        smlcLocReqFsmStateChg s.req .gotTa (smlcLocReqGotTaOnenter L io s.req) : M Unit) w
        = .ok ((), w') ∧ Shows w' (a.finish L io s (.ta cellId ta)) := by
  let g1 : SmlcLocReq → SmlcLocReq := fun x => { x with
    taPresent := true, ta := ta, latestCellId := updateCi L x.latestCellId cellId.toInt16 }
  let g2 : SmlcLocReq → SmlcLocReq := SmlcLocReq.enter .gotTa ∘ g1
  have hg1 : ∀ y, (g1 y).ptr = y.ptr := fun _ => rfl
  have hg2 : KeepsAlive s.locReq s.conn g2 := ⟨fun _ => rfl, rfl, rfl⟩
  have hq1 : (w.updReq s.req g1).locReq? s.req = some (g1 s.locReq) := by
    rw [World.locReq?_updReq hg1, h.locReq? hs]
    rfl
  have hq2 : (w.updReq s.req g2).locReq? s.req = some (g2 s.locReq) := by
    rw [World.locReq?_updReq hg2.ptr, h.locReq? hs]
    rfl
  have hupd : (w.updReq s.req g1).updReq s.req (SmlcLocReq.enter .gotTa) = w.updReq s.req g2 :=
    World.updReq_updReq fun _ => rfl
  obtain ⟨g, hg, hon⟩ := smlcLocReqGotTaOnenter_term L io
    ((h.onLine hw hs).updReq s.req g2) hq2 rfl rfl rfl rfl
  have hcomp : (w.updReq s.req g2).updReq s.req g = w.updReq s.req (g ∘ g2) :=
    World.updReq_updReq hg2.ptr
  obtain ⟨w', hterm, hsh, -⟩ := smlcLocReqTerm_shows h hw hs (hg2.comp hg)
    (w.net.gotTa L io w.cellLocations s (updateCi L s.pdu.cellId cellId.toInt16) ta)
  refine ⟨w', ?_, ?_⟩
  · rw [Prog.bind_ok (setReq_apply _ _), smlcLocReqFsmStateChg_permitted hq1 rfl rfl, hupd, hon,
      hcomp]
    exact hterm
  · rw [h.net, h.cellLocations] at hsh
    exact hsh

theorem smlcLocReqDispatch_waitTa (msg : LocReqMsg) {w' : World} (h : Shows w a)
    (hs : s ∈ a.sessions) (hin : smlcLocReqFsm.inEvent .waitTa msg.event = true)
    (hact : smlcLocReqWaitTaAction L io s.req msg w = .ok ((), w')) :
    smlcLocReqDispatch L io s.req msg w = .ok (0, w') := by
  have hget : (smlcLocReqFi s.req).get w = some s.locReq.fi := by
    simp [smlcLocReqFi, h.locReq? hs]
  apply (Fsm.dispatch_action hget rfl rfl hin).trans
  exact (Prog.bind_ok hact).trans rfl

/-- Perform Location Abort ends the session without an answer. -/
theorem smlcLocReqAbort_shows (h : Shows w a) (hw : a.WF) (hs : s ∈ a.sessions) :
    ∃ w', smlcLocReqWaitTaAction L io s.req .rxLePerformLocationAbort w = .ok ((), w') ∧
      Shows w' (a.finish L io s .locAbort) := by
  obtain ⟨w', hterm, hsh, -⟩ := smlcLocReqTerm_shows h hw hs KeepsAlive.id
    (w.net.emit (.locReqAbort s.req))
  rw [World.updReq_id] at hterm
  rw [h.net] at hsh
  exact ⟨w', (Prog.bind_ok (emit_apply _)).trans hterm, hsh⟩

theorem Shows.connPeerState (h : Shows w a) (hw : a.WF) (hs : s ∈ a.sessions) :
    w.connPeerState s.conn = some .ready := by
  obtain ⟨p, hp, hps, hr⟩ := hw.peerReady s hs
  have hpeer : w.lbPeer? s.peer = some p := hps ▸ h.lbPeer? hw hp
  simp [World.connPeerState, h.lbConn? hw hs, Session.lbConn, hpeer, hr]

/-- A second request on a connection is refused. -/
theorem smlcLocReqStart_busy {pdu : PerformLocReq} (h : Shows w a) (hw : a.WF)
    (hs : s ∈ a.sessions) : smlcLocReqStart L io s.conn pdu w = .ok (-eagain, w.setNet
      (w.net.emit (.locReqRx s.conn (some .ready))).countRequest) := by
  have hx : (w.setNet (w.net.emit (.locReqRx s.conn (some .ready))).countRequest).lbConn? s.conn
      = some s.lbConn := h.lbConn? hw hs
  rw [smlcLocReqStart, Prog.bind_ok (Prog.read_apply _ _), h.connPeerState hw hs,
    Prog.bind_ok (emit_apply _)]
  refine (Prog.bind_ok (onNet_apply _)).trans ?_
  apply (Prog.bind_ok (derefConn_ok hx)).trans
  rfl

/-- Every message on a session does to the objects what it does to the service. -/
theorem smlcLocReqRxBssapLe_shows {pdu : BssapLePdu} (h : Shows w a) (hw : a.WF)
    (hs : s ∈ a.sessions) : ∃ rc w', smlcLocReqRxBssapLe L io s.conn pdu w = .ok (rc, w') ∧
      Shows w' (a.rx L io s pdu.msg) := by
  rw [smlcLocReqRxBssapLe, Prog.bind_ok (derefConn_ok (h.lbConn? hw hs))]
  have hreq : s.lbConn.smlcLocReq = some s.req := rfl
  cases pdu with
  | other discr => exact ⟨_, w, rfl, h⟩
  | bssmapLe pdu =>
    cases pdu with
    | reset => exact ⟨_, w, rfl, h⟩
    | resetAck => exact ⟨_, w, rfl, h⟩
    | performLocResp resp => exact ⟨_, w, rfl, h⟩
    | other msgType => exact ⟨_, w, rfl, h⟩
    | performLocReq pdu =>
      refine ⟨_, _, smlcLocReqStart_busy L io h hw hs, ?_⟩
      rw [h.net]
      exact h.setNet _
    | performLocAbort =>
      obtain ⟨w', hact, hsh⟩ := smlcLocReqAbort_shows L io h hw hs
      refine ⟨0, w', ?_, hsh⟩
      exact (Prog.bind_ok (Prog.check_some hreq)).trans (smlcLocReqDispatch_waitTa L io _ h hs rfl hact)
    | connOrientedInfo apdu =>
      cases apdu with
      | taRequest => exact ⟨_, w, rfl, h⟩
      | taLayer3 ta => exact ⟨_, w, rfl, h⟩
      | other msgType => exact ⟨_, w, rfl, h⟩
      | taResponse cellId ta =>
        obtain ⟨w', hact, hsh⟩ := smlcLocReqGotTa_shows L io h hw hs
        refine ⟨0, w', ?_, hsh⟩
        exact (Prog.bind_ok (Prog.check_some hreq)).trans
          (smlcLocReqDispatch_waitTa L io (.rxTaResponse cellId ta) h hs rfl hact)
      | reset cellId ta =>
        obtain ⟨w', hact, hsh⟩ := smlcLocReqGotTa_shows L io h hw hs
        refine ⟨0, w', ?_, hsh⟩
        exact (Prog.bind_ok (Prog.check_some hreq)).trans
          (smlcLocReqDispatch_waitTa L io (.rxBsslapReset cellId ta) h hs rfl hact)
      | abort =>
        obtain ⟨w', hf, hsh⟩ := smlcLocReqFail_shows L io .requestAborted h hw hs
        refine ⟨0, w', ?_, hsh⟩
        apply (Prog.bind_ok (Prog.check_some hreq)).trans
        exact (Prog.bind_ok hf).trans rfl
      | reject =>
        obtain ⟨w', hf, hsh⟩ := smlcLocReqFail_shows L io .requestAborted h hw hs
        refine ⟨0, w', ?_, hsh⟩
        apply (Prog.bind_ok (Prog.check_some hreq)).trans
        exact (Prog.bind_ok hf).trans rfl

theorem lbConnRx_shows (l2 : List UInt8) (h : Shows w a) (hw : a.WF) (hs : s ∈ a.sessions) :
    ∃ rc w', lbConnRx L io s.conn l2 w = .ok (rc, w') ∧ Shows w' (a.rx L io s (L.msg l2)) := by
  unfold lbConnRx Libosmo.msg
  cases L.bssapLeDec l2 with
  | none => exact ⟨_, w, rfl, h⟩
  | some pdu => exact smlcLocReqRxBssapLe_shows L io h hw hs

/-- T-12 expires: the request fails, and is terminated only once. -/
theorem smlcLocReqTimeout_shows (h : Shows w a) (hw : a.WF) (hs : s ∈ a.sessions) :
    ∃ w', smlcLocReqTimeout io s.req w = .ok ((), w') ∧
      Shows w' (a.finish L io s (.failure .systemFailure)) := by
  let g1 : SmlcLocReq → SmlcLocReq := fun x => { x with fi := ⟨.waitTa, false, false⟩ }
  have hg1 : KeepsAlive s.locReq s.conn g1 := ⟨fun _ => rfl, rfl, rfl⟩
  have hq1 : (w.updReq s.req g1).locReq? s.req = some (g1 s.locReq) := by
    rw [World.locReq?_updReq hg1.ptr, h.locReq? hs]
    rfl
  obtain ⟨g, hg, hf⟩ := smlcLocReqFail_term io .systemFailure
    ((h.onLine hw hs).updReq s.req g1) hq1 rfl rfl rfl
  have hcomp : (w.updReq s.req g1).updReq s.req g = w.updReq s.req (g ∘ g1) :=
    World.updReq_updReq hg1.ptr
  obtain ⟨w', hterm, hsh, q, hq, ht⟩ := smlcLocReqTerm_shows h hw hs (hg1.comp hg)
    (w.net.failed io s .systemFailure)
  have hcb : smlcLocReqFsmTimerCb io s.req (w.updReq s.req g1) = .ok (1, w') := by
    rw [hcomp] at hf
    exact (Prog.bind_ok (hf.trans hterm)).trans rfl
  have hget : (smlcLocReqFi s.req).get w = some s.locReq.fi := by
    simp [smlcLocReqFi, h.locReq? hs]
  have hget' : (smlcLocReqFi s.req).get w' = some q.fi := by simp [smlcLocReqFi, hq]
  refine ⟨w', ?_, ?_⟩
  · rw [smlcLocReqTimeout, Fsm.tmrCb, Prog.bind_ok (Prog.deref_some hget),
      Prog.bind_ok (Prog.modify_apply _ _)]
    apply (Prog.bind_ok hcb).trans
    exact Fsm.term_terminating hget' ht
  · rw [h.net] at hsh
    exact hsh

end OsmoSmlc
