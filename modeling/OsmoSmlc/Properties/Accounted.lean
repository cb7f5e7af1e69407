import OsmoSmlc.Service.Connect

/-! What becomes of a connection that was confirmed: it is listed, or it is disconnected.
A peer in WAIT_RX_RESET is refused without a disconnect. -/
namespace OsmoSmlc
open Osmo

/-- The connection is listed and still open, or it was disconnected, once. -/
def World.Accounted (connId : ConnId) (w w' : World) : Prop :=
  ((w'.connById connId).isSome = true ∧ (newActs w w').count (.disconn connId) = 0) ∨
    (w'.connById connId = none ∧ (newActs w w').count (.disconn connId) = 1)

/-- The peer is known, and not in WAIT_RX_RESET, in which new peers start. -/
def World.PastWaitRxReset (L : Libosmo) (w : World) (addr : SccpAddr) : Prop :=
  ∃ x, w.lbPeerFind L addr = some x ∧ x.fi.state ≠ .waitRxReset

namespace Effect

variable {L : Libosmo} {io : Io} {scu : Bool} {cells : CellStore} {s : Session} {connId : ConnId}

theorem sendCl_no_disconn {addr : SccpAddr} {pdu : BssmapLePdu} :
    (sendCl io scu addr pdu).acts.count (.disconn connId) = 0 := by
  apply List.count_eq_zero.mpr
  intro h
  obtain ⟨rc, hrc⟩ := sendCl_acts h
  cases hrc

theorem sendCo_no_disconn {pdu : BssmapLePdu} :
    (sendCo io scu s pdu).acts.count (.disconn connId) = 0 :=
  List.count_eq_zero.mpr fun h => sendCo_answers h

theorem gotTa_no_disconn {cellId : CellId} {ta : UInt8} :
    (gotTa L io scu cells s cellId ta).acts.count (.disconn connId) = 0 :=
  List.count_eq_zero.mpr fun h => gotTa_answers h

end Effect

namespace Service

variable {L : Libosmo} {io : Io} {a a' : Service} {connId : ConnId} {addr : SccpAddr}
  {l2 : List UInt8} {w' : World}

theorem peer_pastWaitRxReset :
    (a.peer L addr).1.fi.state ≠ .waitRxReset ↔ a.world.PastWaitRxReset L addr := by
  unfold World.PastWaitRxReset
  show _ ↔ ∃ x, a.lbPeers.find? (fun x => L.sccpAddrRiCmp addr x.peerAddr = 0) = some x ∧ _
  unfold peer
  cases a.lbPeers.find? fun x => L.sccpAddrRiCmp addr x.peerAddr = 0 with
  | some x => simp
  | none => simp

theorem connById_kept (hc : a.world.connById connId = none) (hs : a'.sessions = a.sessions) :
    a'.world.connById connId = none := by
  rw [connTo_world_none] at hc ⊢
  rwa [hs]

theorem connById_opened {s : Session} (hs : a'.sessions = s :: a.sessions) :
    (a'.world.connById s.connId).isSome = true := by
  cases hf : a'.world.connById s.connId with
  | some x => rfl
  | none =>
    rw [connTo_world_none] at hf
    exact absurd rfl (hf s (hs ▸ List.mem_cons_self))

/-- Only the refusal in WAIT_RX_RESET leaves a connection that nobody ends. -/
theorem step_accounted_iff (h : a.WF) (hl2 : l2 ≠ []) (hc : a.world.connById connId = none)
    (hr : StepRecord L a ⟨.scu (.nConnect connId addr l2), io⟩ w' a') :
    a.world.Accounted connId w' ↔ a.world.PastWaitRxReset L addr := by
  obtain ⟨acts, hacts, hout⟩ := step_connect h hl2 hc hr.step
  have hcount : (newActs a.world w').count (.disconn connId) = acts.count (.disconn connId) := by
    rw [hr.count_eq rfl, hacts]
    simp
  obtain rfl := hr.world
  rw [← peer_pastWaitRxReset]
  unfold World.Accounted
  rw [hcount]
  cases hout with
  | refused hx hs =>
    rw [Effect.sendCl_no_disconn, connById_kept hc hs]
    simp [hx]
  | disconnected hx hs =>
    rw [List.count_cons_self, Effect.sendCl_no_disconn, connById_kept hc hs]
    simp [hx]
  | ignored hx hm hs =>
    rw [connById_kept hc hs]
    simp [hx]
  | opened s hx hm hcc hid hp hsub hs hbind =>
    have hsome := connById_opened hs
    rw [hid] at hsome
    rw [List.count_append, List.count_cons, Effect.sendCo_no_disconn]
    simp [hx, hsome]
  | answered s ta hx hm hcc hid hs =>
    rw [List.count_append, List.count_cons, Effect.gotTa_no_disconn, connById_kept hc hs]
    simp [hx]

end Service

/-- An N-CONNECT with a payload on a free connection id is confirmed. The connection is then
accounted for exactly where its peer is known and not in WAIT_RX_RESET. -/
theorem connect_accounted_iff (L : Libosmo) {w : World} (hw : ReachableWorld L w)
    {connId : ConnId} {addr : SccpAddr} {l2 : List UInt8} {io : Io} {w' : World} (hl2 : l2 ≠ [])
    (hc : w.connById connId = none)
    (hs : step L w ⟨.scu (.nConnect connId addr l2), io⟩ = .ok w') :
    .connResp connId ∈ newActs w w' ∧
    (w.Accounted connId w' ↔ w.PastWaitRxReset L addr) := by
  obtain ⟨scu, a, -, hwf, rfl⟩ := hw.service
  obtain ⟨a', hr⟩ := step_record L hwf hs
  refine ⟨?_, Service.step_accounted_iff hwf hl2 hc hr⟩
  obtain ⟨acts, hacts, -⟩ := Service.step_connect hwf hl2 hc hr.step
  rw [hr.mem_iff rfl, hacts]
  exact List.mem_cons_self

/-- The first request of a peer that has done the RESET procedure. -/
theorem connect_accounted_iff_ready :
    let is : List Input := [Sample.resetFrom Sample.addrA]
    (Sample.after is).Accounted 1
      (Sample.after (is ++ [Sample.connect 1 Sample.addrA Sample.msgRequestA])) := by
  intro is
  have hs : Sample.survives is = true := by decide +kernel
  have hs' : Sample.survives (is ++ [Sample.connect 1 Sample.addrA Sample.msgRequestA]) = true := by
    decide +kernel
  have hx : (Sample.after is).lbPeerFind Sample.libosmo Sample.addrA
      = some ⟨0, ⟨.ready, false, false⟩, Sample.addrA⟩ := by decide +kernel
  exact (connect_accounted_iff Sample.libosmo (Sample.reachable hs) (by decide)
    (by decide +kernel) (Sample.step_after hs')).2.mpr ⟨_, hx, by decide⟩

/-- The first request of a peer that is not known yet stays without an answer. -/
theorem connect_accounted_new :
    ¬ ∀ w, ReachableWorld Sample.libosmo w → ∀ connId addr l2 io w', l2 ≠ [] →
      w.connById connId = none →
      step Sample.libosmo w ⟨.scu (.nConnect connId addr l2), io⟩ = .ok w' →
      w.Accounted connId w' := by
  intro h
  have hs : Sample.survives [] = true := rfl
  have hs' : Sample.survives ([] ++ [Sample.connect 1 Sample.addrA Sample.msgRequestA]) = true := by
    decide +kernel
  have ha := h _ (Sample.reachable hs) 1 Sample.addrA Sample.msgRequestA _ _ (by decide)
    (by decide +kernel) (Sample.step_after hs')
  revert ha
  unfold World.Accounted
  decide +kernel

end OsmoSmlc
