import OsmoSmlc.Model.Sample
import OsmoSmlc.Service.Simulation

/-! Which events the process does not survive: a peer in READY whose first message on a
connection is about a request that the connection cannot have. -/
namespace OsmoSmlc
open Osmo

/-- The messages that are about the pending request of their connection. -/
def BssapLePdu.endsRequest : BssapLePdu → Bool
  | .bssmapLe .performLocAbort => true
  | .bssmapLe (.connOrientedInfo (.taResponse _ _)) => true
  | .bssmapLe (.connOrientedInfo (.reset _ _)) => true
  | .bssmapLe (.connOrientedInfo .abort) => true
  | .bssmapLe (.connOrientedInfo .reject) => true
  | _ => false

/-- An N-CONNECT on a free id from a peer in READY, with a message about a pending request. -/
def EndsNoRequest (L : Libosmo) (w : World) (ev : Event) : Prop :=
  ∃ connId addr l2 pdu x, ev = .scu (.nConnect connId addr l2) ∧ l2 ≠ [] ∧
    w.connById connId = none ∧ w.lbPeerFind L addr = some x ∧ x.fi.state = .ready ∧
    L.bssapLeDec l2 = some pdu ∧ pdu.endsRequest = true

theorem BssapLePdu.endsRequest_iff {pdu : BssapLePdu} :
    pdu.endsRequest = true ↔ ∃ e, pdu.msg = .ending e := by
  have hends : ∀ {p : BssapLePdu} {e : Ending}, p.endsRequest = true → p.msg = .ending e →
      (p.endsRequest = true ↔ ∃ e, p.msg = .ending e) :=
    fun h he => ⟨fun _ => ⟨_, he⟩, fun _ => h⟩
  cases pdu with
  | other discr => exact ⟨nofun, nofun⟩
  | bssmapLe pdu =>
    cases pdu with
    | performLocAbort => exact hends rfl rfl
    | connOrientedInfo apdu =>
      cases apdu with
      | taResponse cellId ta => exact hends rfl rfl
      | reset cellId ta => exact hends rfl rfl
      | abort => exact hends rfl rfl
      | reject => exact hends rfl rfl
      | _ => exact ⟨nofun, nofun⟩
    | _ => exact ⟨nofun, nofun⟩

theorem Libosmo.msg_ending_iff {L : Libosmo} {l2 : List UInt8} :
    (∃ e, L.msg l2 = .ending e) ↔ ∃ pdu, L.bssapLeDec l2 = some pdu ∧ pdu.endsRequest = true := by
  unfold Libosmo.msg
  cases L.bssapLeDec l2 with
  | none => simp
  | some pdu => simp [BssapLePdu.endsRequest_iff]

namespace Service

variable {L : Libosmo} {io : Io} {a : Service} {connId : ConnId} {addr : SccpAddr} {x : LbPeer}
  {m : Msg}

theorem connTo_world_none : a.world.connById connId = none ↔ ∀ s ∈ a.sessions, s.connId ≠ connId := by
  rw [connById_world, Option.map_eq_none_iff, List.find?_eq_none]
  simp

theorem openConn_error {p : PeerPtr} {e : Crash} :
    a.openConn L io p connId m = .error e ↔ ∃ k, m = .ending k ∧ e = .nullDeref k.fn := by
  cases m with
  | ignored => simp [openConn]
  | request pdu => simp [openConn]
  | ending k => simp [openConn, eq_comm]

theorem connectTo_error {e : Crash} :
    a.connectTo L io x connId m = .error e ↔
      x.fi.state = .ready ∧ ∃ k, m = .ending k ∧ e = .nullDeref k.fn := by
  unfold connectTo
  cases x.fi.state with
  | ready => simp [openConn_error]
  | _ => simp

/-- A peer that is not listed yet starts outside READY. -/
theorem peer_ready : (a.peer L addr).1.fi.state = .ready ↔
    ∃ x, a.world.lbPeerFind L addr = some x ∧ x.fi.state = .ready := by
  have hfind : a.world.lbPeerFind L addr
      = a.lbPeers.find? fun x => L.sccpAddrRiCmp addr x.peerAddr = 0 := rfl
  rw [hfind]
  unfold peer
  cases a.lbPeers.find? fun x => L.sccpAddrRiCmp addr x.peerAddr = 0 with
  | some x => simp
  | none => simp

theorem connect_error {e : Crash} :
    a.connect L io connId addr m = .error e ↔
      a.world.connById connId = none ∧
      (∃ x, a.world.lbPeerFind L addr = some x ∧ x.fi.state = .ready) ∧
      ∃ k, m = .ending k ∧ e = .nullDeref k.fn := by
  unfold connect
  by_cases hany : a.sessions.any (fun s => s.connId = connId) = true
  · have hne : a.world.connById connId ≠ none := by
      rw [ne_eq, connTo_world_none]
      obtain ⟨s, hs, hid⟩ := List.any_eq_true.mp hany
      intro h
      exact h s hs (by simpa using hid)
    simp [hany, hne]
  · have hnone : a.world.connById connId = none := by
      rw [connTo_world_none]
      intro s hs hid
      exact hany (List.any_eq_true.mpr ⟨s, hs, by simpa using hid⟩)
    rw [if_neg hany, ← peer_ready]
    simp only [hnone, true_and]
    exact connectTo_error

/-- The only step that fails, and how. -/
theorem step_error {i : Input} {e : Crash} (hs : a.step L i = .error e) :
    EndsNoRequest L a.world i.ev ∧ ∃ k : Ending, e = .nullDeref k.fn := by
  obtain ⟨ev, io⟩ := i
  cases ev with
  | scu prim =>
    simp only [step, handle] at hs
    split at hs
    · cases hs
    · rename_i e' he
      cases hs
      cases prim with
      | nConnect connId addr l2 =>
        simp only [rxPrim] at he
        split at he
        · cases he
        · rename_i hl
          obtain ⟨hid, ⟨x, hx, hst⟩, k, hk, rfl⟩ := connect_error.mp he
          obtain ⟨pdu, hdec, hends⟩ := Libosmo.msg_ending_iff.mp ⟨k, hk⟩
          refine ⟨⟨connId, addr, l2, pdu, x, rfl, ?_, hid, hx, hst, hdec, hends⟩, k, rfl⟩
          rintro rfl
          exact hl rfl
      | _ => cases he
  | _ => cases hs

theorem step_endsNoRequest {i : Input} (h : EndsNoRequest L a.world i.ev) :
    ∃ k : Ending, a.step L i = .error (.nullDeref k.fn) := by
  obtain ⟨ev, io⟩ := i
  obtain ⟨connId, addr, l2, pdu, x, rfl, hl2, hid, hx, hst, hdec, hends⟩ := h
  obtain ⟨k, hk⟩ := Libosmo.msg_ending_iff.mpr ⟨pdu, hdec, hends⟩
  let b := (a.setNet a.net.takeMsgb).emit (.connResp connId)
  have hc : b.connect L io connId addr (L.msg l2) = .error (.nullDeref k.fn) :=
    connect_error.mpr ⟨hid, ⟨x, hx, hst⟩, k, hk, rfl⟩
  have hp : (a.setNet a.net.takeMsgb).rxPrim L io a.net.nextMsgb (.nConnect connId addr l2)
      = .error (.nullDeref k.fn) := by
    have hlen : l2.length ≠ 0 := fun hl => hl2 (List.length_eq_zero_iff.mp hl)
    simp only [rxPrim, if_neg hlen]
    exact hc
  refine ⟨k, ?_⟩
  simp only [step, handle, hp]

end Service

/-- In every state between two events, the process follows no null or dangling pointer and fails
no assertion in the next event, unless that is the first message of a connection and is about a
pending request; then it follows the null pointer. A run whose events are of the other kind is
never cut short. (That a buffer is freed twice where a RESET ACKNOWLEDGE is refused is on record
but no failure.) -/
theorem step_ok_iff (L : Libosmo) :
    (∀ w, ReachableWorld L w → ∀ i : Input,
      ((∃ w', step L w i = .ok w') ↔ ¬EndsNoRequest L w i.ev) ∧
      (EndsNoRequest L w i.ev → ∃ fn, step L w i = .error (.nullDeref fn))) ∧
    (∀ scu is, Meets (step L) (fun w i => ¬EndsNoRequest L w i.ev) (World.init scu) is →
      ∃ w', run (step L) (World.init scu) is = .ok w') := by
  have hfail : ∀ w, ReachableWorld L w → ∀ i : Input, EndsNoRequest L w i.ev →
      ∃ fn, step L w i = .error (.nullDeref fn) := by
    intro w hw i he
    obtain ⟨scu, a, -, hwf, rfl⟩ := hw.service
    obtain ⟨k, hk⟩ := Service.step_endsNoRequest he
    refine ⟨k.fn, ?_⟩
    rw [step_world L hwf, hk]
    rfl
  have hok : ∀ w, ReachableWorld L w → ∀ i : Input, ¬EndsNoRequest L w i.ev →
      ∃ w', step L w i = .ok w' := by
    intro w hw i he
    obtain ⟨scu, a, -, hwf, rfl⟩ := hw.service
    rw [step_world L hwf]
    cases hs : a.step L i with
    | ok a' => exact ⟨a'.world, rfl⟩
    | error e => exact absurd (Service.step_error hs).1 he
  constructor
  · intro w hw i
    refine ⟨⟨?_, hok w hw i⟩, hfail w hw i⟩
    rintro ⟨w', hs⟩ he
    obtain ⟨fn, hf⟩ := hfail w hw i he
    rw [hs] at hf
    cases hf
  · intro scu is hm
    refine run_total_of_meets (I := ReachableWorld L) ?_ ⟨scu, Reachable.refl⟩ hm
    intro w i hw he
    obtain ⟨w', hs⟩ := hok w hw i he
    obtain ⟨scu, hr⟩ := hw
    exact ⟨w', hs, scu, hr.snoc hs⟩

/-- A Perform Location Request is survived, and so is the run up to it. -/
theorem step_ok_iff_request :
    let is := [Sample.resetFrom Sample.addrA]
    let i := Sample.connect 1 Sample.addrA Sample.msgRequestA
    (∃ w', step Sample.libosmo (Sample.after is) i = .ok w') ∧
    ∃ w', run (step Sample.libosmo) (World.init true) is = .ok w' := by
  refine ⟨(((step_ok_iff Sample.libosmo).1 _ (Sample.reachable rfl) _).1).mpr
    ?_, (step_ok_iff Sample.libosmo).2 true _ ⟨?_, fun _ _ => trivial⟩⟩
  · rintro ⟨connId, addr, l2, pdu, x, hev, -, -, -, -, hdec, hends⟩
    cases hev
    cases hdec
    cases hends
  · rintro ⟨connId, addr, l2, pdu, x, hev, -⟩
    cases hev

/-- A peer in READY can end the process with one message. -/
theorem step_ok_abort :
    ¬ ∀ w, ReachableWorld Sample.libosmo w → ∀ i : Input,
      ∃ w', step Sample.libosmo w i = .ok w' := by
  intro h
  let is := [Sample.resetFrom Sample.addrA]
  obtain ⟨w', hw'⟩ := h (Sample.after is) (Sample.reachable rfl)
    (Sample.connect 1 Sample.addrA Sample.msgAbort)
  have hcrash : step Sample.libosmo (Sample.after is)
      (Sample.connect 1 Sample.addrA Sample.msgAbort)
      = .error (.nullDeref .smlcLocReqRxBssapLe) := rfl
  rw [hcrash] at hw'
  cases hw'

end OsmoSmlc
