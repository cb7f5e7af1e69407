import OsmoSmlc.Properties.NoCrash
import OsmoSmlc.Service.Objects
import OsmoSmlc.Service.Turn

/-! What an N-DISCONNECT leaves behind. The process answers it, but looks at the connection
only if there is a payload, and only the payload can end the connection. -/
namespace OsmoSmlc
open Osmo

/-- No connection with the id is left, its request has ended and its token is returned;
everything else is as before. -/
structure World.Freed (connId : ConnId) (w w' : World) : Prop where
  conns : w'.lbConns = w.lbConns.filter fun x => x.sccpConnId ≠ connId
  ended : ∀ x ∈ w.lbConns, x.sccpConnId = connId → ∀ r, x.smlcLocReq = some r →
    w'.locReq? r = none ∧ (newActs w w').count (.locReqCleanup r) = 1
  tokens : ∀ x ∈ w.lbConns, x.sccpConnId = connId → ∀ p, x.smlcSubscr = some p →
    w'.tokens p + 1 = w.tokens p
  others : ∀ x ∈ w.lbConns, x.sccpConnId ≠ connId → ∀ r, x.smlcLocReq = some r →
    w'.locReq? r = w.locReq? r
  peers : w'.lbPeers = w.lbPeers

/-- The payload of an N-DISCONNECT ends the connection, where there is one. -/
def FreesConn (L : Libosmo) (w : World) (connId : ConnId) (l2 : List UInt8) : Prop :=
  w.connById connId = none ∨
    l2 ≠ [] ∧ ∃ pdu, L.bssapLeDec l2 = some pdu ∧ pdu.endsRequest = true

/-- Whether the SCCP connection is open after a run, seen from the SCCP layer. -/
def sccpOpen (connId : ConnId) (is : List Input) : Bool :=
  is.foldl (fun isOpen i =>
    match i.ev with
    | .scu (.nConnect c _ _) => if c = connId then true else isOpen
    | .scu (.nDisconnect c _) => if c = connId then false else isOpen
    | _ => isOpen) false

/-- An event that lets no connection outlive its SCCP connection. -/
def DisconnectFrees (L : Libosmo) (w : World) (i : Input) : Prop :=
  ∀ connId l2, i.ev = .scu (.nDisconnect connId l2) → FreesConn L w connId l2

namespace Service

variable {L : Libosmo} {io : Io} {a a' : Service} {s : Session} {connId : ConnId}

/-- Removing a session by its connection is removing it by its id. -/
theorem remove_conn_eq (h : a.WF) (hs : s ∈ a.sessions) :
    (KeyedList.remove Session.conn a.sessions s.conn).map Session.lbConn
      = a.world.lbConns.filter fun x => x.sccpConnId ≠ s.connId := by
  have hf : KeyedList.remove Session.conn a.sessions s.conn
      = a.sessions.filter fun t => t.connId ≠ s.connId := by
    apply List.filter_congr
    intro t ht
    have hiff : t.conn = s.conn ↔ t.connId = s.connId := by
      constructor
      · intro heq
        rw [List.inj_on_of_nodup_map h.conns ht hs heq]
      · intro heq
        rw [List.inj_on_of_nodup_map h.connIds ht hs heq]
    simp [hiff]
  rw [hf]
  simp only [world, List.filter_map]
  rfl

/-- An N-DISCONNECT leaves the service as it is, or takes the one session with the id. -/
theorem step_disconnect {l2 : List UInt8}
    (ho : a.step L ⟨.scu (.nDisconnect connId l2), io⟩ = .ok a') :
    ((a.world.connById connId = none ∨ l2 = [] ∨ ∀ k, L.msg l2 ≠ .ending k) ∧
      ∃ n, a' = a.setNet n) ∨
    (∃ s ∈ a.sessions, ∃ k n, s.connId = connId ∧ l2 ≠ [] ∧ L.msg l2 = .ending k ∧
      a' = a.drop s n ∧
      (a.effect L ⟨.scu (.nDisconnect connId l2), io⟩).acts
        = .peerDispatch s.peer .ready .msgUpCo :: (a.finishEffect L io s k).acts
          ++ [.disconn connId]) := by
  simp only [step, handle, rxPrim] at ho
  cases ho
  by_cases hl : l2.length ≠ 0
  · have hl2 : l2 ≠ [] := fun h => hl (List.length_eq_zero_iff.mpr h)
    cases hfind : a.sessions.find? fun s => s.connId = connId with
    | none =>
      refine .inl ⟨.inl ?_, ?_⟩
      · rw [connById_world, hfind]
        rfl
      · rw [if_pos hl, (data_none (a := a.setNet a.net.takeMsgb) hfind).1]
        exact ⟨_, rfl⟩
    | some s =>
      have hid : s.connId = connId := by simpa using List.find?_some hfind
      let d := a.setNet a.net.takeMsgb
      have hfind' : d.sessions.find? (fun s => s.connId = connId) = some s := hfind
      rw [if_pos hl, (data_some hfind').1]
      cases hm : L.msg l2 with
      | ignored => exact .inl ⟨.inr (.inr (by simp)), _, rfl⟩
      | request pdu => exact .inl ⟨.inr (.inr (by simp)), _, rfl⟩
      | ending k =>
        let b := (a.setNet a.net.takeMsgb).emit (.peerDispatch s.peer .ready .msgUpCo)
        let c := ((b.finish L io s k).emit (.disconn connId)).emit (.msgbFree a.net.nextMsgb)
        refine .inr ⟨s, List.mem_of_find?_eq_some hfind, k, c.net, hid, hl2, rfl, rfl, ?_⟩
        have he : a.dataEffect L io connId (L.msg l2)
            = .act (.peerDispatch s.peer .ready .msgUpCo) ++ a.finishEffect L io s k := by
          rw [hm]
          exact (data_some hfind).2
        have hprim : a.rxPrimEffect L io (.nDisconnect connId l2)
            = a.dataEffect L io connId (L.msg l2) ++ .act (.disconn connId) := by
          simp only [rxPrimEffect, if_pos hl]
        show (Effect.msgb ++ a.rxPrimEffect L io (.nDisconnect connId l2)).acts = _
        rw [hprim, he]
        rfl
  · rw [if_neg hl]
    have hl2 : l2 = [] := List.length_eq_zero_iff.mp (not_not.mp hl)
    exact .inl ⟨.inr (.inl hl2), _, rfl⟩

theorem drop_freed {n : Net} (h : a.WF) (hs : s ∈ a.sessions)
    (hc : (newActs a.world (a.drop s n).world).count (.locReqCleanup s.req) = 1) :
    a.world.Freed s.connId (a.drop s n).world := by
  have hsame : ∀ t ∈ a.sessions, t.connId = s.connId → t = s :=
    fun t ht heq => List.inj_on_of_nodup_map h.connIds ht hs heq
  have hleft : ∀ t, t ∈ (a.drop s n).sessions ↔ t ∈ a.sessions ∧ t.conn ≠ s.conn :=
    fun t => KeyedList.mem_remove
  refine ⟨remove_conn_eq h hs, ?_, ?_, ?_, rfl⟩
  · intro x hx hid r hr
    obtain ⟨t, ht, rfl⟩ := List.mem_map.mp hx
    obtain rfl := hsame t ht hid
    cases hr
    refine ⟨world_locReq?_none.mpr ?_, hc⟩
    intro u hu heq
    obtain ⟨hu, hne⟩ := (hleft u).mp hu
    exact hne (by rw [List.inj_on_of_nodup_map h.reqs hu ht heq])
  · intro x hx hid p hp
    obtain ⟨t, ht, rfl⟩ := List.mem_map.mp hx
    obtain rfl := hsame t ht hid
    have hrefs := refs_remove (p := p) h.conns ht
    have hp' : t.subscr = some p := hp
    rw [world_tokens (h.drop t n), world_tokens h, hrefs, if_pos hp']
    exact (Int.natCast_succ _).symm
  · intro x hx hid r hr
    obtain ⟨t, ht, rfl⟩ := List.mem_map.mp hx
    cases hr
    have hne : t.conn ≠ s.conn := by
      intro heq
      exact hid (by rw [List.inj_on_of_nodup_map h.conns ht hs heq]; rfl)
    rw [world_locReq? h ht]
    exact world_locReq? (h.drop s n) ((hleft t).mpr ⟨ht, hne⟩)

theorem setNet_freed {n : Net} (hc : a.world.connById connId = none) :
    a.world.Freed connId (a.setNet n).world := by
  have hno : ∀ x ∈ a.world.lbConns, x.sccpConnId ≠ connId := by
    intro x hx
    simpa using List.find?_eq_none.mp hc x hx
  refine ⟨?_, fun x hx hid => absurd hid (hno x hx), fun x hx hid => absurd hid (hno x hx),
    fun _ _ _ _ _ => rfl, rfl⟩
  exact (List.filter_eq_self.mpr fun x hx => by simpa using hno x hx).symm

/-- The connection is freed exactly where the payload ends it, or where there is none. -/
theorem step_freed_iff {l2 : List UInt8} {w' : World} (h : a.WF)
    (hr : StepRecord L a ⟨.scu (.nDisconnect connId l2), io⟩ w' a') :
    a.world.Freed connId w' ↔ FreesConn L a.world connId l2 := by
  obtain rfl := hr.world
  rcases step_disconnect hr.step with ⟨hkeep, n, rfl⟩ | ⟨s, hs, k, n, rfl, hl2, hm, rfl, hacts⟩
  · constructor
    · intro hf
      have hconns : a.world.lbConns = a.world.lbConns.filter fun x => x.sccpConnId ≠ connId :=
        hf.conns
      refine .inl (List.find?_eq_none.mpr fun x hx => ?_)
      rw [hconns] at hx
      simpa using (List.mem_filter.mp hx).2
    · rintro (hc | ⟨hl2, hdec⟩)
      · exact setNet_freed hc
      · obtain ⟨k, hk⟩ := Libosmo.msg_ending_iff.mpr hdec
        rcases hkeep with hc | rfl | hno
        · exact setNet_freed hc
        · exact absurd rfl hl2
        · exact absurd hk (hno k)
  · refine ⟨fun _ => .inr ⟨hl2, Libosmo.msg_ending_iff.mp ⟨k, hm⟩⟩, fun _ => drop_freed h hs ?_⟩
    rw [hr.count_eq rfl, hacts, List.count_append, List.count_cons,
      count_finishEffect (by simp [Act.Answers])]
    simp

/-- An N-CONNECT on a free id from a peer in READY is a first message to that peer. -/
theorem connect_fresh {addr : SccpAddr} {l2 : List UInt8} {x : LbPeer} {w' : World}
    (hc : a.world.connById connId = none) (hl2 : l2 ≠ [])
    (hx : a.world.lbPeerFind L addr = some x) (hst : x.fi.state = .ready)
    (hr : StepRecord L a ⟨.scu (.nConnect connId addr l2), io⟩ w' a') :
    .peerDispatch x.ptr .ready .msgUpCoInitial ∈ newActs a.world w' := by
  have hlen : l2.length ≠ 0 := fun h => hl2 (List.length_eq_zero_iff.mp h)
  have hany : ¬a.sessions.any (fun s => s.connId = connId) = true := by
    rw [connTo_world_none] at hc
    intro h
    obtain ⟨s, hs, hid⟩ := List.any_eq_true.mp h
    exact hc s hs (by simpa using hid)
  have hpeer : (a.peer L addr).1 = x := by
    have hfind : a.lbPeers.find? (fun x => L.sccpAddrRiCmp addr x.peerAddr = 0) = some x := hx
    simp only [peer, hfind]
  rw [hr.mem_iff rfl]
  show _ ∈ (Effect.msgb ++ a.rxPrimEffect L io (.nConnect connId addr l2)).acts
  simp only [rxPrimEffect, if_neg hlen, connectEffect, if_neg hany, hpeer, hst,
    Effect.acts_append, Effect.acts_act]
  simp

theorem step_sccpOpen {is : List Input} {i : Input} {w' : World} (h : a.WF)
    (hopen : ∀ s ∈ a.sessions, sccpOpen s.connId is = true) (hd : DisconnectFrees L a.world i)
    (hr : StepRecord L a i w' a') : ∀ s ∈ a'.sessions, sccpOpen s.connId (is ++ [i]) = true := by
  intro s hs
  have hstep : sccpOpen s.connId (is ++ [i]) = match i.ev with
      | .scu (.nConnect c _ _) => if c = s.connId then true else sccpOpen s.connId is
      | .scu (.nDisconnect c _) => if c = s.connId then false else sccpOpen s.connId is
      | _ => sccpOpen s.connId is := by
    simp only [sccpOpen, List.foldl_append, List.foldl_cons, List.foldl_nil]
  rcases (step_turn h hr.step).mem hs with hold | ⟨addr, l2, hev⟩
  · have hbefore := hopen s hold
    rw [hstep]
    split
    · split
      · rfl
      · exact hbefore
    · rename_i c l2 hev
      split
      · rename_i hc
        obtain rfl := hc
        -- The connection is gone, so the session cannot be listed.
        obtain ⟨ev, io⟩ := i
        obtain rfl : ev = _ := hev
        obtain rfl := hr.world
        have hf := (step_freed_iff h hr).mpr (hd s.connId l2 rfl)
        have hmem : s.lbConn ∈ a'.world.lbConns := List.mem_map_of_mem hs
        rw [hf.conns] at hmem
        have hne := (List.mem_filter.mp hmem).2
        simp [Session.lbConn] at hne
      · exact hbefore
    · exact hbefore
  · rw [hstep, hev]
    simp

end Service

/-- After an N-DISCONNECT nothing is left of the connection exactly where its payload ends
the request, or where there was no connection. In runs whose N-DISCONNECTs are all of that
kind no connection outlives its SCCP connection, and the next N-CONNECT on its id is taken
for a fresh connection. -/
theorem disconnect_freed_iff (L : Libosmo) :
    (∀ w, ReachableWorld L w → ∀ connId l2 io w',
      step L w ⟨.scu (.nDisconnect connId l2), io⟩ = .ok w' →
      (w.Freed connId w' ↔ FreesConn L w connId l2)) ∧
    (∀ scu is w, Meets (step L) (DisconnectFrees L) (World.init scu) is →
      run (step L) (World.init scu) is = .ok w → ∀ connId, sccpOpen connId is = false →
      w.connById connId = none ∧ ∀ addr l2 io x w', l2 ≠ [] → w.lbPeerFind L addr = some x →
        x.fi.state = .ready → step L w ⟨.scu (.nConnect connId addr l2), io⟩ = .ok w' →
        .peerDispatch x.ptr .ready .msgUpCoInitial ∈ newActs w w') := by
  constructor
  · intro w hw connId l2 io w' hs
    obtain ⟨scu, a, -, hwf, rfl⟩ := hw.service
    obtain ⟨a', hr⟩ := step_record L hwf hs
    exact Service.step_freed_iff hwf hr
  · intro scu is w hm hrun connId hclosed
    have hinv : ∃ a : Service, a.WF ∧ w = a.world ∧
        ∀ s ∈ a.sessions, sccpOpen s.connId is = true := by
      refine run_history (H := fun is w => ∃ a : Service, a.WF ∧ w = a.world ∧
        ∀ s ∈ a.sessions, sccpOpen s.connId is = true)
        ⟨Service.init scu, Service.init_wf scu, rfl, by simp [Service.init]⟩ ?_ hm hrun
      rintro js u i v - ⟨a, hwf, rfl, hopen⟩ hd hs
      obtain ⟨a', hr⟩ := step_record L hwf hs
      exact ⟨a', hr.wf, hr.world, Service.step_sccpOpen hwf hopen hd hr⟩
    obtain ⟨a, hwf, rfl, hopen⟩ := hinv
    have hnone : a.world.connById connId = none := by
      rw [Service.connTo_world_none]
      intro s hs heq
      have h := hopen s hs
      rw [heq, hclosed] at h
      cases h
    refine ⟨hnone, ?_⟩
    intro addr l2 io x w' hl2 hx hst hs
    obtain ⟨a', hr⟩ := step_record L hwf hs
    exact Service.connect_fresh hnone hl2 hx hst hr

/-- An abort in the payload frees the connection and leaves the other one. The next N-CONNECT on
the id is for a fresh connection. -/
theorem disconnect_freed_iff_abort :
    let is : List Input := [Sample.resetFrom Sample.addrA,
      Sample.connect 1 Sample.addrA Sample.msgRequestA,
      Sample.connect 2 Sample.addrA Sample.msgRequestB]
    let js := is ++ [Sample.disconnect 1 Sample.msgAbort]
    (Sample.after is).Freed 1 (Sample.after js) ∧
    (Sample.after js).lbConns.map LbConn.sccpConnId = [2] ∧
    .peerDispatch 0 .ready .msgUpCoInitial ∈ newActs (Sample.after js)
      (Sample.after (js ++ [Sample.connect 1 Sample.addrA Sample.msgRequestA])) := by
  intro is js
  have hs : Sample.survives is = true := by decide +kernel
  have hs' : Sample.survives js = true := by decide +kernel
  have hs'' : Sample.survives (js ++ [Sample.connect 1 Sample.addrA Sample.msgRequestA]) = true := by
    decide +kernel
  have hfrees : ∀ w, FreesConn Sample.libosmo w 1 Sample.msgAbort :=
    fun w => .inr ⟨by decide, .bssmapLe .performLocAbort, by decide +kernel, rfl⟩
  have hm : Meets (step Sample.libosmo) (DisconnectFrees Sample.libosmo) (World.init true) js := by
    apply meets_of_forall
    intro i hi w connId l2 hev
    have hall : ∀ i ∈ js, ∀ connId l2, i.ev = .scu (.nDisconnect connId l2) →
        connId = 1 ∧ l2 = Sample.msgAbort := by
      simp [js, is, Sample.resetFrom, Sample.connect, Sample.disconnect]
    obtain ⟨rfl, rfl⟩ := hall i hi connId l2 hev
    exact hfrees w
  have h := disconnect_freed_iff Sample.libosmo
  obtain ⟨-, hfresh⟩ := h.2 true js _ hm (Sample.run_after hs') 1 (by decide)
  let x : LbPeer := ⟨0, ⟨.ready, false, false⟩, Sample.addrA⟩
  exact ⟨(h.1 _ (Sample.reachable hs) 1 Sample.msgAbort _ _ (Sample.step_after hs')).mpr
      (hfrees _), by decide +kernel,
    hfresh Sample.addrA Sample.msgRequestA Sample.io x _ (by decide) (by decide +kernel) rfl
      (Sample.step_after hs'')⟩

/-- Without a payload the connection stays listed. -/
theorem disconnect_freed_empty :
    ¬ ∀ w, ReachableWorld Sample.libosmo w → ∀ connId l2 io w',
      step Sample.libosmo w ⟨.scu (.nDisconnect connId l2), io⟩ = .ok w' →
      w.Freed connId w' := by
  intro h
  let is : List Input := [Sample.resetFrom Sample.addrA,
    Sample.connect 1 Sample.addrA Sample.msgRequestA]
  have hs : Sample.survives is = true := by decide +kernel
  have hs' : Sample.survives (is ++ [Sample.disconnect 1 []]) = true := by decide +kernel
  have hf := h _ (Sample.reachable hs) 1 [] _ _ (Sample.step_after hs')
  have hlen := congrArg List.length hf.conns
  revert hlen
  decide +kernel

end OsmoSmlc
