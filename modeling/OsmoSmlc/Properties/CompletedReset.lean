import OsmoSmlc.Model.Sample
import OsmoSmlc.Service.Orderly
import OsmoSmlc.Service.PeerMoves

/-! No service without a completed RESET procedure: what must have happened for a peer to be
in READY, over the whole run. -/
namespace OsmoSmlc
open Osmo

/-- A RESET to the peer was accepted by the SCCP layer. -/
def ResetStarted (L : Libosmo) (p : PeerPtr) (w : World) (i : Input) (w' : World) : Prop :=
  ∃ connId addr l2 msg, i.ev = .scu (.nConnect connId addr l2) ∧ (w.peerOf L addr).ptr = p ∧
    .sapDown (.nUnitdata (w.peerOf L addr).peerAddr (.bssmapLe .reset)) msg 0 ∈ newActs w w'

/-- A RESET of the peer was received and the SCCP layer accepted the RESET ACKNOWLEDGE, or a
RESET ACKNOWLEDGE was received in WAIT_RX_RESET_ACK, into which an accepted RESET had led. -/
def ResetDone (L : Libosmo) (scu : Bool) (p : PeerPtr) (before : List Input) (w : World)
    (i : Input) (w' : World) : Prop :=
  ∃ addr l2, i.ev = .scu (.nUnitdata addr l2) ∧ (w.peerOf L addr).ptr = p ∧
    ((L.bssmapLeMsgt l2 = .reset ∧ ∃ msg, .sapDown
        (.nUnitdata (w.peerOf L addr).peerAddr (.bssmapLe .resetAck)) msg 0 ∈ newActs w w') ∨
      (L.bssmapLeMsgt l2 = .resetAck ∧ w.PeerIn p .waitRxResetAck ∧
        Since (step L) (World.PeerIn p .waitRxResetAck) (fun _ => ResetStarted L p)
          (World.init scu) before))

namespace Service

variable {L : Libosmo} {a a' : Service} {i : Input} {w' : World} {p : PeerPtr} {st : LbPeerState}
  {addr : SccpAddr}

/-- A peer that an event finds outside the first state is listed. -/
theorem peerIn_peer (h : a.WF) (hst : (a.peer L addr).1.fi.state = st) (hne : st ≠ .waitRxReset) :
    a.world.PeerIn (a.peer L addr).1.ptr st := by
  unfold peer at hst ⊢
  split at hst
  · rename_i x hx
    refine ⟨x, ?_, hst⟩
    exact KeyedList.lookup_of_mem h.peerPtrs (List.mem_of_find?_eq_some hx)
  · exact absurd hst.symm hne

theorem sapDown_newActs {req : ScuReq} {rc : Int} (hr : StepRecord L a i w' a')
    (h : .sapDown req 0 rc ∈ (a.effect L i).acts) :
    ∃ msg, .sapDown req msg rc ∈ newActs a.world w' := by
  rw [← hr.seen] at h
  exact mem_seen_sapDown.mp h

theorem step_resetStarted (hr : StepRecord L a i w' a') (h : w'.PeerIn p .waitRxResetAck) :
    a.world.PeerIn p .waitRxResetAck ∨ ResetStarted L p a.world i w' := by
  obtain rfl := hr.world
  cases step_peerMove hr.step (peerIn_world.mp h) with
  | kept hk => exact .inl (peerIn_world.mpr hk)
  | waiting hst => cases hst
  | acknowledged addr l2 hev hmsg hp hst hacc => cases hst
  | completed addr l2 hev hmsg hp hold hst => cases hst
  | started connId addr l2 hev hp hst hacc =>
    obtain ⟨msg, hmsg⟩ := sapDown_newActs hr hacc
    refine .inr ⟨connId, addr, l2, msg, hev, ?_, ?_⟩
    · rw [peerOf_world, hp]
    · rw [peerOf_world]
      exact hmsg

theorem step_resetDone {scu : Bool} {is : List Input} (hwf : a.WF) (hr : StepRecord L a i w' a')
    (hsince : a.world.PeerIn p .waitRxResetAck →
      Since (OsmoSmlc.step L) (World.PeerIn p .waitRxResetAck) (fun _ => ResetStarted L p)
        (World.init scu) is)
    (h : w'.PeerIn p .ready) : a.world.PeerIn p .ready ∨ ResetDone L scu p is a.world i w' := by
  obtain rfl := hr.world
  cases step_peerMove hr.step (peerIn_world.mp h) with
  | kept hk => exact .inl (peerIn_world.mpr hk)
  | waiting hst => cases hst
  | started connId addr l2 hev hp hst hacc => cases hst
  | acknowledged addr l2 hev hmsg hp hst hacc =>
    refine .inr ⟨addr, l2, hev, peerOf_world.symm ▸ hp, .inl ⟨hmsg, ?_⟩⟩
    rw [peerOf_world]
    exact sapDown_newActs hr hacc
  | completed addr l2 hev hmsg hp hold hst =>
    have hin := peerIn_peer hwf hold nofun
    rw [hp] at hin
    exact .inr ⟨addr, l2, hev, peerOf_world.symm ▸ hp, .inr ⟨hmsg, hin, hsince hin⟩⟩

/-- A RESET ACKNOWLEDGE that is not waited for changes nothing. -/
theorem step_resetAck_ignored {l2 : List UInt8} {io : Io} {x : LbPeer}
    (hx : a.world.lbPeerFind L addr = some x) (hst : x.fi.state ≠ .waitRxResetAck)
    (hmsg : L.bssmapLeMsgt l2 = .resetAck)
    (ho : a.step L ⟨.scu (.nUnitdata addr l2), io⟩ = .ok a') :
    ∃ n, a' = a.setNet n := by
  have hpeer : ∀ n, (a.setNet n).peer L addr = (x, a.setNet n) := by
    intro n
    have hfind : (a.setNet n).lbPeers.find? (fun x => L.sccpAddrRiCmp addr x.peerAddr = 0) = some x :=
      hx
    simp only [peer, hfind]
  simp only [step, handle, rxPrim] at ho
  cases ho
  simp only [unitdata, hpeer, hmsg, if_neg hst]
  exact ⟨_, rfl⟩

end Service

/-- At every point of every run: a connection has its peer in READY; a peer in READY has
completed a RESET procedure since it was last in another state; requests and later messages were
only handled for peers in READY; DISCARDING was never entered, and a RESET ACKNOWLEDGE that is
not waited for changes nothing. -/
theorem run_completedReset (L : Libosmo) {scu : Bool} {is : List Input} {w : World}
    (hr : run (step L) (World.init scu) is = .ok w) :
    (∀ x ∈ w.lbConns, ∃ p, x.lbPeer = some p ∧ w.PeerIn p .ready) ∧
    (∀ p, w.PeerIn p .ready →
      Since (step L) (World.PeerIn p .ready) (ResetDone L scu p) (World.init scu) is) ∧
    (∀ c st, .locReqRx c st ∈ w.net.log → st = some .ready) ∧
    (∀ p st, .peerDispatch p st .msgUpCo ∈ w.net.log → st = .ready) ∧
    (∀ p st ev, .peerDispatch p st ev ∈ w.net.log → st ≠ .discarding) ∧
    (∀ x ∈ w.lbPeers, x.fi.state ≠ .discarding) ∧
    ∀ addr l2 io w' x, w.lbPeerFind L addr = some x →
      x.fi.state = .ready ∨ x.fi.state = .waitRxReset → L.bssmapLeMsgt l2 = .resetAck →
      step L w ⟨.scu (.nUnitdata addr l2), io⟩ = .ok w' →
      w'.lbPeers = w.lbPeers ∧ w'.lbConns = w.lbConns ∧ w'.locReqs = w.locReqs := by
  have hreach : ∀ {js : List Input} {u : World}, run (step L) (World.init scu) js = .ok u →
      ∃ a : Service, a.WF ∧ u = a.world := by
    intro js u hu
    have hw : ReachableWorld L u := ⟨scu, js, hu⟩
    obtain ⟨-, a, -, hwf, rfl⟩ := hw.service
    exact ⟨a, hwf, rfl⟩
  have hnone : ∀ p st, ¬(World.init scu).PeerIn p st := by
    rintro p st ⟨x, hx, -⟩
    cases hx
  have hstarted : ∀ p js u, run (step L) (World.init scu) js = .ok u →
      u.PeerIn p .waitRxResetAck →
      Since (step L) (World.PeerIn p .waitRxResetAck) (fun _ => ResetStarted L p)
        (World.init scu) js := by
    intro p js u hu hin
    refine run_since (hnone p _) ?_ hu hin
    intro ks v j v' hv hs hin'
    obtain ⟨a, hwf, rfl⟩ := hreach hv
    obtain ⟨a', hrec⟩ := step_record L hwf hs
    exact Service.step_resetStarted hrec hin'
  have horderly := ReachableWorld.orderly ⟨scu, is, hr⟩
  obtain ⟨a, hwf, rfl⟩ := hreach hr
  refine ⟨?_, ?_, ?_, ?_, ?_, hwf.peerState, ?_⟩
  · intro x hx
    obtain ⟨s, hs, rfl⟩ := List.mem_map.mp hx
    obtain ⟨y, hy, hyp, hyst⟩ := hwf.peerReady s hs
    refine ⟨s.peer, rfl, y, ?_, hyst⟩
    rw [← hyp]
    exact KeyedList.lookup_of_mem hwf.peerPtrs hy
  · intro p hin
    refine run_since (hnone p _) ?_ hr hin
    intro js v j v' hv hs hin'
    have hsince := hstarted p js v hv
    obtain ⟨b, hwfb, rfl⟩ := hreach hv
    obtain ⟨b', hrec⟩ := step_record L hwfb hs
    exact Service.step_resetDone hwfb hrec hsince hin'
  · exact fun c st hact => horderly _ hact
  · exact fun p st hact => (horderly _ hact).2 (.inl rfl)
  · exact fun p st ev hact => (horderly _ hact).1
  · intro addr l2 io w' x hx hst hmsg hs
    obtain ⟨a', hrec⟩ := step_record L hwf hs
    have hne : x.fi.state ≠ .waitRxResetAck := by
      rcases hst with hst | hst <;> rw [hst] <;> nofun
    obtain ⟨n, rfl⟩ := Service.step_resetAck_ignored hx hne hmsg hrec.step
    rw [hrec.world]
    exact ⟨rfl, rfl, rfl⟩

/-- A peer is sent a RESET and acknowledges it; another one resets itself. -/
theorem run_completedReset_two :
    let is : List Input := [Sample.connect 1 Sample.addrA Sample.msgRequestA,
      Sample.resetAckFrom Sample.addrA, Sample.resetFrom Sample.addrB]
    Since (step Sample.libosmo) (World.PeerIn 0 .ready) (ResetDone Sample.libosmo true 0)
      (World.init true) is := by
  intro is
  have hs : Sample.survives is = true := by decide +kernel
  have hpeer : (Sample.after is).lbPeer? 0 = some ⟨0, ⟨.ready, false, false⟩, Sample.addrA⟩ := by
    decide +kernel
  exact (run_completedReset Sample.libosmo (Sample.run_after hs)).2.1 0 ⟨_, hpeer, rfl⟩

end OsmoSmlc
