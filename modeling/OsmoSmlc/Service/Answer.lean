import OsmoSmlc.Service.Teardown

/-! What the state machine of a request sends before it terminates itself. Each onenter
function comes down to one termination, after a change of the request and the answer. -/
namespace OsmoSmlc
open Osmo

variable (L : Libosmo) (io : Io)

/-- The connection of a session and its READY peer are there to send on. -/
structure OnLine (w : World) (s : Session) : Prop where
  conn : ∃ x, w.lbConn? s.conn = some x ∧ x.sccpConnId = s.connId ∧ x.lbPeer = some s.peer ∧
    x.smlcLocReq = some s.req
  peer : ∃ p, w.lbPeer? s.peer = some p ∧ p.fi.state = .ready ∧ p.fi.terminating = false

section Send

variable {w : World} {s : Session} {n : Net} {g : SmlcLocReq → SmlcLocReq} {pdu : BssmapLePdu}

theorem OnLine.setNet (h : OnLine w s) (n : Net) : OnLine (w.setNet n) s := ⟨h.conn, h.peer⟩

theorem OnLine.updReq (h : OnLine w s) (r : ReqPtr) (g : SmlcLocReq → SmlcLocReq) :
    OnLine (w.updReq r g) s :=
  ⟨h.conn, h.peer⟩

theorem Shows.onLine {a : Service} (h : Shows w a) (hw : a.WF) (hs : s ∈ a.sessions) :
    OnLine w s where
  conn := ⟨s.lbConn, h.lbConn? hw hs, rfl, rfl, rfl⟩
  peer := by
    obtain ⟨p, hp, hps, hr⟩ := hw.peerReady s hs
    refine ⟨p, hps ▸ h.lbPeer? hw hp, hr, ?_⟩
    rw [hw.peerFi p hp]

/-- READY takes the event and sends the message; the result of the send is lost. -/
theorem lbConnSendBssmapLe_onLine (h : OnLine w s) :
    lbConnSendBssmapLe io s.conn pdu w
      = .ok ((w.net.sendCo io s pdu).1, w.setNet (w.net.sendCo io s pdu).2) := by
  obtain ⟨x, hx, hid, hp, hr⟩ := h.conn
  obtain ⟨p, hpp, hst, ht⟩ := h.peer
  rw [lbConnSendBssmapLe, Prog.bind_ok (onNet_apply _)]
  unfold Net.sendCo
  rcases henc : w.net.bssapLeEnc io (.bssmapLe pdu) with ⟨_ | msg, n⟩
  · simp
  · let l3 : TxMsgb := ⟨msg, .bssmapLe pdu⟩
    let n1 := (n.emit (.peerDispatch s.peer .ready .msgDownCo)).emit
      (.msgDownCo s.conn (some s.req) (.bssmapLe pdu))
    let n2 := (n1.sccpLbSapDown io (.nData s.connId (.bssmapLe pdu)) msg).2
    have hsend : lbPeerStReadyDown io s.peer (.msgDownCo (some ⟨s.connId, some s.conn, some l3⟩))
        (w.setNet (n.emit (.peerDispatch s.peer .ready .msgDownCo))) = .ok ((), w.setNet n2) := by
      rw [lbPeerStReadyDown, Prog.bind_ok (Prog.check_some rfl),
        Prog.bind_ok (Prog.check_some rfl)]
      have hemit : Prog.ifSome (some s.conn) (fun c => do
            let lbConn ← derefConn c
            emit (.msgDownCo c lbConn.smlcLocReq l3.pdu))
          (w.setNet (n.emit (.peerDispatch s.peer .ready .msgDownCo))) = .ok ((), w.setNet n1) := by
        rw [Prog.ifSome_some, Prog.bind_ok (derefConn_ok (by simpa using hx)), hr]
        simp [n1, l3]
      rw [Prog.bind_ok hemit]
      rfl
    have hdown : lbConnDownL2Co io s.conn l3 false (w.setNet n) = .ok (0, w.setNet n2) := by
      rw [lbConnDownL2Co, Prog.bind_ok (derefConn_ok (by simpa using hx)), hp, hid]
      simp only [Bool.false_eq_true, ↓reduceIte]
      rw [lbPeerDispatchDown, Prog.bind_ok (derefPeer_ok (by simpa using hpp)), hst,
        Prog.bind_ok (emit_apply _)]
      have hget : (lbPeerFi s.peer).get
          ((w.setNet n).setNet (n.emit (.peerDispatch s.peer .ready .msgDownCo)))
          = some p.fi := by
        simp [lbPeerFi, hpp]
      apply (Fsm.dispatch_action hget ht rfl (by rw [hst]; rfl)).trans
      rw [hst]
      exact (Prog.bind_ok hsend).trans rfl
    apply (Prog.bind_ok hdown).trans
    rfl

end Send

section Onenter

variable {w : World} {s : Session} {q : SmlcLocReq} {onenter : M Unit} {r : ReqPtr}
  {new : LocReqState} {g g' : SmlcLocReq → SmlcLocReq}

/-- Entering a state of the request, with its timeout. -/
def SmlcLocReq.enter (new : LocReqState) (y : SmlcLocReq) : SmlcLocReq :=
  { y with fi := ⟨new, false, smlcLocReqFsm.timeout new⟩ }

theorem smlcLocReqFsmStateChg_permitted (hq : w.locReq? r = some q)
    (ht : q.fi.terminating = false) (hm : smlcLocReqFsm.outState q.fi.state new = true) :
    smlcLocReqFsmStateChg r new onenter w = onenter (w.updReq r (SmlcLocReq.enter new)) := by
  have hget : (smlcLocReqFi r).get w = some q.fi := by simp [smlcLocReqFi, hq]
  have hset : (smlcLocReqFi r).set
      { q.fi with state := new, timer := smlcLocReqFsm.timeout new } w
      = w.updReq r (SmlcLocReq.enter new) := by
    simp only [smlcLocReqFi, ht]
    rfl
  rw [smlcLocReqFsmStateChg, Prog.bind_apply, Fsm.stateChg_permitted hget ht hm, hset,
    Prog.bind_apply]
  cases onenter (w.updReq r (SmlcLocReq.enter new)) <;> rfl

theorem smlcLocReqSend_onLine {pdu : BssmapLePdu} (h : OnLine w s) (hc : q.lbConn = some s.conn) :
    smlcLocReqSend io q pdu w
      = .ok ((w.net.sendCo io s pdu).1, w.setNet (w.net.sendCo io s pdu).2) := by
  rw [smlcLocReqSend, Prog.bind_ok (Prog.check_some hc)]
  exact lbConnSendBssmapLe_onLine io h

/-- A failed request sends its cause and terminates. -/
theorem smlcLocReqFail_term (cause : LcsCause) (h : OnLine w s) (hq : w.locReq? s.req = some q)
    (hc : q.lbConn = some s.conn) (ht : q.fi.terminating = false)
    (hm : smlcLocReqFsm.outState q.fi.state .failed = true) :
    ∃ g, KeepsAlive q s.conn g ∧ smlcLocReqFail io s.req cause w
      = smlcLocReqTerm lbConnClose s.req
        ((w.updReq s.req g).setNet (w.net.failed io s cause)) := by
  let g : SmlcLocReq → SmlcLocReq := SmlcLocReq.enter .failed ∘ fun y =>
    { y with lcsCause := some cause }
  have hgp : ∀ y, (g y).ptr = y.ptr := fun _ => rfl
  refine ⟨g, ⟨hgp, hc, rfl⟩, ?_⟩
  have hq1 : (w.updReq s.req fun y => { y with lcsCause := some cause }).locReq? s.req
      = some { q with lcsCause := some cause } := by simp [hq]
  have hq2 : (w.updReq s.req g).locReq? s.req = some (g q) := by
    rw [World.locReq?_updReq hgp, hq]
    rfl
  have hupd : (w.updReq s.req fun y => { y with lcsCause := some cause }).updReq s.req
      (SmlcLocReq.enter .failed) = w.updReq s.req g := World.updReq_updReq fun _ => rfl
  rw [smlcLocReqFail, Prog.bind_ok (setReq_apply _ _), smlcLocReqFsmStateChg_permitted hq1 ht hm,
    hupd, smlcLocReqFailedOnenter, Prog.bind_ok (derefReq_ok hq2)]
  exact Prog.bind_ok (smlcLocReqSend_onLine io (h.updReq _ _) hc)

/-- Without an estimate the answer is a cause; a failed send is answered by a cause, too. -/
theorem smlcLocReqGotTaOnenter_term (h : OnLine w s) (hq : w.locReq? s.req = some q)
    (hc : q.lbConn = some s.conn) (ht : q.fi.terminating = false)
    (hm : smlcLocReqFsm.outState q.fi.state .failed = true) (hta : q.taPresent = true) :
    ∃ g, KeepsAlive q s.conn g ∧ smlcLocReqGotTaOnenter L io s.req w
      = smlcLocReqTerm lbConnClose s.req ((w.updReq s.req g).setNet
        (w.net.gotTa L io w.cellLocations s q.latestCellId q.ta)) := by
  rw [smlcLocReqGotTaOnenter, Prog.bind_ok (derefReq_ok hq)]
  simp only [hta, Bool.not_true, Bool.false_eq_true, ↓reduceIte]
  rw [Prog.bind_ok (Prog.read_apply _ _)]
  unfold Net.gotTa Net.estimate
  cases hloc : cellLocationFromTa L w.cellLocations q.latestCellId q.ta with
  | none => exact smlcLocReqFail_term io _ h hq hc ht hm
  | some location =>
    dsimp only
    by_cases hrc : (L.gadEnc location).1 ≤ 0
    · simp only [hrc, ↓reduceIte]
      exact smlcLocReqFail_term io _ h hq hc ht hm
    · simp only [hrc, ↓reduceIte]
      let pdu : BssmapLePdu := .performLocResp ⟨some (L.gadEnc location).2, none⟩
      rw [Prog.bind_ok (smlcLocReqSend_onLine io h hc)]
      by_cases hsend : (w.net.sendCo io s pdu).1 = 0
      · refine ⟨id, ⟨fun _ => rfl, hc, ht⟩, ?_⟩
        have hid : w.updReq s.req id = w := by
          simp [World.ext_iff, KeyedList.update]
        simp [pdu, hsend, hid]
      · have hq' : (w.setNet (w.net.sendCo io s pdu).2).locReq? s.req = some q := hq
        obtain ⟨g, hg, hf⟩ := smlcLocReqFail_term io .systemFailure
          (h.setNet (w.net.sendCo io s pdu).2) hq' hc ht hm
        refine ⟨g, hg, ?_⟩
        simp only [pdu] at hsend hf
        simp only [ne_eq, hsend, not_false_eq_true, ↓reduceIte, hf]
        rfl

end Onenter
end OsmoSmlc
