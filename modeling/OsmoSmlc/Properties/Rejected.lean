import OsmoSmlc.Model.Sample
import OsmoSmlc.Service.Simulation

/-! A rejected message changes nothing: where `lb_conn_rx` returns an error, it has undone
what it did before it found the error. -/
namespace OsmoSmlc
open Osmo

/-- Nothing was sent and every object is as before; only the request was counted, if it was
one. A subscriber that was created and freed again has used up an address. -/
structure Rejected (w w' : World) (c : ConnPtr) : Prop where
  lbPeers : w'.lbPeers = w.lbPeers
  lbConns : w'.lbConns = w.lbConns
  locReqs : w'.locReqs = w.locReqs
  subscrs : w'.subscrs.list = w.subscrs.list
  cellLocations : w'.cellLocations = w.cellLocations
  next : w'.next = w.next
  net : w'.net = w.net ∨ w'.net = (w.net.emit (.locReqRx c (w.connPeerState c))).countRequest

section Branches

variable {L : Libosmo} {io : Io} {w w' : World} {c : ConnPtr} {rc : Int} {imsi : MobileIdentity}
  {pdu : PerformLocReq}

theorem Rejected.refl (w : World) (c : ConnPtr) : Rejected w w c :=
  ⟨rfl, rfl, rfl, rfl, rfl, rfl, .inl rfl⟩

theorem derefConn_eq_ok {x : LbConn} (h : derefConn c w = .ok (x, w')) :
    w.lbConn? c = some x ∧ w' = w :=
  Prog.deref_eq_ok h

theorem onSubscrs_eq_ok {α : Type} {x : Prog Crash (Subscribers Use) α} {a : α}
    (h : onSubscrs x w = .ok (a, w')) : ∃ t, x w.subscrs = .ok (a, t) ∧ w' = w.setSubscrs t := by
  unfold onSubscrs Prog.zoom at h
  split at h
  · cases h
    exact ⟨_, ‹_›, rfl⟩
  · cases h

/-- Whether a request is bound to a subscriber is only looked up. -/
theorem smlcLocReqStartBinds_same {b : Bool} (h : smlcLocReqStartBinds L c imsi w = .ok (b, w')) :
    w' = w := by
  unfold smlcLocReqStartBinds at h
  split at h
  · obtain ⟨x, w1, hx, hmatch⟩ := Prog.bind_eq_ok.mp h
    obtain ⟨-, hw1⟩ := derefConn_eq_ok hx
    cases hs : x.smlcSubscr with
    | none =>
      rw [hs] at hmatch
      cases hmatch
      exact hw1
    | some p =>
      rw [hs] at hmatch
      obtain ⟨y, w2, hy, hcmp⟩ := Prog.bind_eq_ok.mp hmatch
      obtain ⟨t, ht, hw2⟩ := onSubscrs_eq_ok hy
      obtain ⟨-, rfl⟩ := Prog.deref_eq_ok ht
      cases hcmp
      exact hw2.trans hw1
  · cases h
    rfl

/-- A subscriber that is not that of the connection is put back. -/
theorem smlcLocReqStartSubscr_rejected (hw : w.subscrs.Form)
    (h : smlcLocReqStartSubscr L c imsi w = .ok (rc, w')) (hrc : rc ≠ 0) :
    ∃ t, t.list = w.subscrs.list ∧ w' = w.setSubscrs t := by
  obtain ⟨p, t', t, hfind, hput, hlist, -⟩ :=
    smlcSubscrFindOrCreate_put (L := L) hw imsi Use.smlcLocReqStart
  obtain ⟨x, w1, hx, hbody⟩ := Prog.bind_eq_ok.mp h
  obtain ⟨-, rfl⟩ := derefConn_eq_ok hx
  have hrun := (Prog.bind_ok (onSubscrs_ok hfind)).symm.trans hbody
  split at hrun
  · have hback := (Prog.bind_ok (onSubscrs_ok (w := w1.setSubscrs t') hput)).symm.trans hrun
    cases hback
    exact ⟨t, hlist, rfl⟩
  · refine absurd (Prog.Yields.bind (fun _ => ?_) _ _ _ hrun) hrc
    exact .bind fun _ => .bind fun _ => .bind fun _ => .bind fun _ => Prog.yields_pure 0

theorem smlcLocReqStart_rejected (hw : w.subscrs.Form)
    (h : smlcLocReqStart L io c pdu w = .ok (rc, w')) (hrc : rc ≠ 0) : Rejected w w' c := by
  obtain ⟨st, w1, hread, hemit⟩ := Prog.bind_eq_ok.mp h
  cases hread
  obtain ⟨_, w2, hrec, hcount⟩ := Prog.bind_eq_ok.mp hemit
  cases hrec
  obtain ⟨_, w3, hctr, hbody⟩ := Prog.bind_eq_ok.mp hcount
  cases hctr
  have hsame : ∀ t : Subscribers Use, t.list = w.subscrs.list → Rejected w
      ((w.setNet (w.net.emit (.locReqRx c (w.connPeerState c))).countRequest).setSubscrs t) c :=
    fun t ht => ⟨rfl, rfl, rfl, ht, rfl, rfl, .inr rfl⟩
  obtain ⟨x, w4, hx, hif⟩ := Prog.bind_eq_ok.mp hbody
  obtain ⟨-, hw4⟩ := derefConn_eq_ok hx
  rw [hw4] at hif
  split at hif
  · cases hif
    exact hsame w.subscrs rfl
  · obtain ⟨binds, w5, hbinds, hsub⟩ := Prog.bind_eq_ok.mp hif
    rw [smlcLocReqStartBinds_same hbinds] at hsub
    cases binds with
    | true =>
      obtain ⟨rc', w6, hrc', hend⟩ := Prog.bind_eq_ok.mp hsub
      dsimp only at hend
      split at hend
      · rename_i hne
        cases hend
        obtain ⟨t, ht, rfl⟩ := smlcLocReqStartSubscr_rejected (by exact hw) hrc' hne
        exact hsame t ht
      · exact absurd (Prog.Yields.bind (fun _ => Prog.yields_pure 0) _ _ _ hend) hrc
    | false => exact absurd (Prog.Yields.bind (fun _ => Prog.yields_pure 0) _ _ _ hsub) hrc

/-- A message for a pending request is rejected by its state machine, if at all. -/
theorem smlcLocReqDispatch_rejected {o : Option ReqPtr} {fn : Fn} {msg : LocReqMsg}
    (h : (Prog.deref (.nullDeref fn) (fun _ => o) >>= fun r => smlcLocReqDispatch L io r msg) w
      = .ok (rc, w')) (hrc : rc ≠ 0) : w' = w := by
  obtain ⟨r, w1, hr, hrun⟩ := Prog.bind_eq_ok.mp h
  obtain ⟨-, rfl⟩ := Prog.deref_eq_ok hr
  exact Fsm.dispatch_rejected hrun hrc

theorem handleBssmapLeConnOrientedInfo_rejected {o : Option ReqPtr} {apdu : BsslapPdu}
    (h : handleBssmapLeConnOrientedInfo L io o apdu w = .ok (rc, w')) (hrc : rc ≠ 0) : w' = w := by
  have hfail : ∀ {fn : Fn} {cause : LcsCause}, (Prog.deref (.nullDeref fn) (fun _ => o) >>=
      fun r => smlcLocReqFail io r cause >>= fun _ => pure 0) w ≠ .ok (rc, w') := fun hrun =>
    hrc (Prog.Yields.bind (fun _ => .bind fun _ => Prog.yields_pure 0) _ _ _ hrun)
  cases apdu with
  | taResponse cellId ta => exact smlcLocReqDispatch_rejected h hrc
  | reset cellId ta => exact smlcLocReqDispatch_rejected h hrc
  | abort => exact absurd h hfail
  | reject => exact absurd h hfail
  | taRequest =>
    cases h
    rfl
  | taLayer3 ta =>
    cases h
    rfl
  | other msgType =>
    cases h
    rfl

theorem smlcLocReqRxBssapLe_rejected {pdu : BssapLePdu} (hw : w.subscrs.Form)
    (h : smlcLocReqRxBssapLe L io c pdu w = .ok (rc, w')) (hrc : rc ≠ 0) : Rejected w w' c := by
  obtain ⟨x, w1, hx, hmatch⟩ := Prog.bind_eq_ok.mp h
  obtain ⟨-, hw1⟩ := derefConn_eq_ok hx
  rw [hw1] at hmatch
  have hsame : w' = w → Rejected w w' c := fun heq => heq ▸ Rejected.refl w c
  have herr : ∀ {e : Int}, (pure e : M Int) w = .ok (rc, w') → Rejected w w' c := by
    intro e he
    cases he
    exact Rejected.refl w c
  cases pdu with
  | other discr => exact herr hmatch
  | bssmapLe pdu =>
    cases pdu with
    | performLocReq pdu => exact smlcLocReqStart_rejected hw hmatch hrc
    | performLocAbort => exact hsame (smlcLocReqDispatch_rejected hmatch hrc)
    | connOrientedInfo apdu => exact hsame (handleBssmapLeConnOrientedInfo_rejected hmatch hrc)
    | reset => exact herr hmatch
    | resetAck => exact herr hmatch
    | performLocResp pdu => exact herr hmatch
    | other msgType => exact herr hmatch

theorem lbConnRx_rejected {l2 : List UInt8} (hw : w.subscrs.Form)
    (h : lbConnRx L io c l2 w = .ok (rc, w')) (hrc : rc ≠ 0) : Rejected w w' c := by
  unfold lbConnRx at h
  cases hdec : L.bssapLeDec l2 with
  | none =>
    rw [hdec] at h
    cases h
    exact Rejected.refl w c
  | some pdu =>
    rw [hdec] at h
    exact smlcLocReqRxBssapLe_rejected hw h hrc

theorem smlcLocReqStart_received {x : LbConn} (hx : w.lbConn? c = some x) :
    let w0 := w.setNet (w.net.emit (.locReqRx c (w.connPeerState c))).countRequest
    smlcLocReqStart L io c pdu w = (do
      if x.smlcLocReq.isSome then return -eagain
      else
        let binds ← smlcLocReqStartBinds L c pdu.imsi
        let rc ← if binds then smlcLocReqStartSubscr L c pdu.imsi else pure 0
        if rc ≠ 0 then return rc
        else
          smlcLocReqStartFsm L io c pdu
          return 0 : M Int) w0 := by
  intro w0
  refine (Prog.bind_ok (Prog.read_apply _ _)).trans ?_
  refine (Prog.bind_ok (emit_apply _)).trans ?_
  refine (Prog.bind_ok (onNet_apply _)).trans ?_
  exact Prog.bind_ok (derefConn_ok (w := w0) hx)

/-- A request is refused while another one is pending. -/
theorem lbConnRx_pending {l2 : List UInt8} {x : LbConn} (hx : w.lbConn? c = some x)
    (hr : x.smlcLocReq.isSome) (hl2 : L.bssapLeDec l2 = some (.bssmapLe (.performLocReq pdu))) :
    lbConnRx L io c l2 w = .ok (-eagain,
      w.setNet (w.net.emit (.locReqRx c (w.connPeerState c))).countRequest) := by
  unfold lbConnRx
  rw [hl2]
  apply (Prog.bind_ok (derefConn_ok hx)).trans
  apply (smlcLocReqStart_received hx).trans
  rw [if_pos hr]
  rfl

/-- A request for another subscriber than that of the connection is refused. -/
theorem lbConnRx_mismatch {l2 : List UInt8} {x : LbConn} {p : SubscrPtr} {y : SmlcSubscr Use}
    (hw : w.subscrs.Form) (hx : w.lbConn? c = some x) (hr : x.smlcLocReq = none)
    (hp : x.smlcSubscr = some p) (hy : w.subscrs.subscr? p = some y)
    (hl2 : L.bssapLeDec l2 = some (.bssmapLe (.performLocReq pdu)))
    (ht : pdu.imsi.type = .imsi) (hne : L.mobileIdentityCmp pdu.imsi y.imsi ≠ 0)
    (hne' : L.mobileIdentityCmp y.imsi pdu.imsi ≠ 0) :
    ∃ w', lbConnRx L io c l2 w = .ok (-einval, w') := by
  let w0 := w.setNet (w.net.emit (.locReqRx c (w.connPeerState c))).countRequest
  have hbinds : smlcLocReqStartBinds L c pdu.imsi w0 = .ok (true, w0) := by
    rw [smlcLocReqStartBinds, if_pos ht, Prog.bind_ok (derefConn_ok (w := w0) hx), hp]
    apply (Prog.bind_ok (onSubscrs_ok (w := w0) (derefSubscr_ok hy))).trans
    rw [decide_eq_true hne]
    rfl
  obtain ⟨q, t', t, hfind, hput, -, hcmp⟩ :=
    smlcSubscrFindOrCreate_put (L := L) hw pdu.imsi Use.smlcLocReqStart
  have hq : x.smlcSubscr.isSome ∧ x.smlcSubscr ≠ some q := by
    rw [hp]
    refine ⟨rfl, fun heq => ?_⟩
    obtain ⟨hmem, hyp⟩ := KeyedList.lookup_some_mem hy
    exact hne' (hcmp y hmem (hyp.trans (Option.some.inj heq)))
  have hsub : smlcLocReqStartSubscr L c pdu.imsi w0 = .ok (-einval, w0.setSubscrs t) := by
    rw [smlcLocReqStartSubscr, Prog.bind_ok (derefConn_ok (w := w0) hx),
      Prog.bind_ok (onSubscrs_ok (w := w0) hfind), if_pos hq,
      Prog.bind_ok (onSubscrs_ok (w := w0.setSubscrs t') hput)]
    rfl
  refine ⟨w0.setSubscrs t, ?_⟩
  unfold lbConnRx
  rw [hl2]
  apply (Prog.bind_ok (derefConn_ok hx)).trans
  apply (smlcLocReqStart_received hx).trans
  rw [hr, if_neg (by simp)]
  apply (Prog.bind_ok hbinds).trans
  apply (Prog.bind_ok hsub).trans
  rfl

end Branches

theorem ReachableWorld.subscrsForm {L : Libosmo} {w : World} (h : ReachableWorld L w) :
    w.subscrs.Form := by
  obtain ⟨-, a, -, hwf, rfl⟩ := h.service
  exact Service.world_subscrsForm hwf

/-- Whatever the payload, an error of `lb_conn_rx` means that nothing has changed. A request is
such an error while another one is pending, and where it is for another subscriber. -/
theorem rejected_changesNothing (L : Libosmo) (io : Io) (w : World) (c : ConnPtr)
    (l2 : List UInt8) (hw : w.subscrs.Form) :
    (∀ rc w', lbConnRx L io c l2 w = .ok (rc, w') → rc ≠ 0 → Rejected w w' c) ∧
    (∀ x pdu, w.lbConn? c = some x → x.smlcLocReq.isSome →
      L.bssapLeDec l2 = some (.bssmapLe (.performLocReq pdu)) →
      ∃ w', lbConnRx L io c l2 w = .ok (-eagain, w') ∧ Rejected w w' c) ∧
    (∀ x pdu p y, w.lbConn? c = some x → x.smlcLocReq = none → x.smlcSubscr = some p →
      w.subscrs.subscr? p = some y →
      L.bssapLeDec l2 = some (.bssmapLe (.performLocReq pdu)) → pdu.imsi.type = .imsi →
      L.mobileIdentityCmp pdu.imsi y.imsi ≠ 0 → L.mobileIdentityCmp y.imsi pdu.imsi ≠ 0 →
      ∃ w', lbConnRx L io c l2 w = .ok (-einval, w') ∧ Rejected w w' c) := by
  refine ⟨fun rc w' => lbConnRx_rejected hw, ?_, ?_⟩
  · intro x pdu hx hr hl2
    have hrx : lbConnRx L io c l2 w = .ok (-eagain, _) := lbConnRx_pending hx hr hl2
    exact ⟨_, hrx, lbConnRx_rejected hw hrx (by decide)⟩
  · intro x pdu p y hx hr hp hy hl2 ht hne hne'
    obtain ⟨w', hrx⟩ : ∃ w', lbConnRx L io c l2 w = .ok (-einval, w') :=
      lbConnRx_mismatch hw hx hr hp hy hl2 ht hne hne'
    exact ⟨w', hrx, lbConnRx_rejected hw hrx (by decide)⟩

/-- A second request on a connection, and one for another subscriber once the first has ended. -/
theorem rejected_changesNothing_two :
    let w := Sample.after [Sample.resetFrom Sample.addrA,
      Sample.connect 1 Sample.addrA Sample.msgRequestA]
    let v := w.updConn 0 fun y => { y with smlcLocReq := none }
    (∃ w', lbConnRx Sample.libosmo Sample.io 0 Sample.msgRequestB w = .ok (-eagain, w') ∧
      Rejected w w' 0) ∧
    ∃ v', lbConnRx Sample.libosmo Sample.io 0 Sample.msgRequestB v = .ok (-einval, v') ∧
      Rejected v v' 0 := by
  intro w v
  have hw : ReachableWorld Sample.libosmo w := Sample.reachable (by decide +kernel)
  have hx : w.lbConn? 0 = some ⟨0, [(.smlcLocReq, 1)], some 0, 1, false, some 0, some 0⟩ := by
    decide +kernel
  have hs : w.subscrs.subscr? 0 = some ⟨0, Sample.imsiA, [(.lbConn, 1)]⟩ := by decide +kernel
  clear_value w
  have hy : v.lbConn? 0 = some ⟨0, [(.smlcLocReq, 1)], some 0, 1, false, some 0, none⟩ := by
    simp [v, hx]
  obtain ⟨-, hpending, -⟩ := rejected_changesNothing Sample.libosmo Sample.io w 0
    Sample.msgRequestB hw.subscrsForm
  obtain ⟨-, -, hmismatch⟩ := rejected_changesNothing Sample.libosmo Sample.io v 0
    Sample.msgRequestB hw.subscrsForm
  exact ⟨hpending _ (Sample.request Sample.imsiB) hx rfl (by decide),
    hmismatch _ (Sample.request Sample.imsiB) 0 _ hy rfl rfl hs (by decide) rfl (by decide)
      (by decide)⟩

end OsmoSmlc
