import OsmoSmlc.Properties.PeerReset

/-! The process never speaks up by itself: an event makes it send one message at most, to
where the event came from. -/
namespace OsmoSmlc
open Osmo

/-- The messages that were sent so far. -/
def World.downs (w : World) : List ScuReq := w.net.log.filterMap Act.down?

/-- An event on a connection. -/
def Event.isOn (w : World) (connId : ConnId) : Event → Prop
  | .scu (.nConnect c _ _) | .scu (.nData c _) | .scu (.nDisconnect c _) => c = connId
  | .locReqTimer r => ∃ x ∈ w.lbConns, x.sccpConnId = connId ∧ x.smlcLocReq = some r
  | _ => False

/-- What may be sent on an event. A peer is addressed as it was when it became known. -/
inductive Event.Reply (L : Libosmo) (w : World) : Event → ScuReq → Prop
  | taRequest (connId : ConnId) (addr : SccpAddr) (l2 : List UInt8) :
      Reply L w (.scu (.nConnect connId addr l2))
        (.nData connId (.bssmapLe (.connOrientedInfo .taRequest)))
  | answer (ev : Event) (connId : ConnId) (resp : PerformLocResp) (hon : ev.isOn w connId) :
      Reply L w ev (.nData connId (.bssmapLe (.performLocResp resp)))
  | reset (connId : ConnId) (addr called : SccpAddr) (l2 : List UInt8)
      (hcalled : called = addr ∨ L.sccpAddrRiCmp addr called = 0) :
      Reply L w (.scu (.nConnect connId addr l2)) (.nUnitdata called (.bssmapLe .reset))
  | resetAck (addr called : SccpAddr) (l2 : List UInt8) (hmsgt : L.bssmapLeMsgt l2 = .reset)
      (hcalled : called = addr ∨ L.sccpAddrRiCmp addr called = 0) :
      Reply L w (.scu (.nUnitdata addr l2)) (.nUnitdata called (.bssmapLe .resetAck))

/-- The events that nothing is ever sent on. -/
def Event.isQuiet : Event → Bool
  | .scu (.unsupported _) | .lbPeerTimer _ | .vty _ => true
  | _ => false

theorem Event.Reply.not_quiet {L : Libosmo} {w : World} {ev : Event} {q : ScuReq}
    (h : ev.Reply L w q) : ev.isQuiet = false := by
  cases h with
  | answer _ connId resp hon =>
    cases ev with
    | scu prim =>
      cases prim with
      | unsupported l2 => cases hon
      | _ => rfl
    | locReqTimer r => rfl
    | lbPeerTimer p => cases hon
    | vty cmd => cases hon
  | _ => rfl

namespace Effect

variable {L : Libosmo} {io : Io} {scu : Bool} {cells : CellStore} {s : Session} {e f : Effect}
  {R : ScuReq → Prop}

def downs (e : Effect) : List ScuReq := e.acts.filterMap Act.down?

/-- One message at most is sent, and only such a one. -/
def Sends (R : ScuReq → Prop) (e : Effect) : Prop := ∃ o : Option ScuReq, e.downs = o.toList ∧ ∀ q ∈ o, R q

@[simp] theorem downs_append : (e ++ f).downs = e.downs ++ f.downs := List.filterMap_append

theorem Sends.before (h : Sends R f) (he : e.downs = []) : Sends R (e ++ f) := by
  obtain ⟨o, ho, hq⟩ := h
  exact ⟨o, by rw [downs_append, he, ho, List.nil_append], hq⟩

theorem Sends.then (h : Sends R e) (hf : f.downs = []) : Sends R (e ++ f) := by
  obtain ⟨o, ho, hq⟩ := h
  exact ⟨o, by rw [downs_append, hf, ho, List.append_nil], hq⟩

theorem sends_nothing (h : e.downs = []) : Sends R e := ⟨none, h, fun q hq => by cases hq⟩

theorem down_sends {req : ScuReq} (h : R req) : Sends R (down io scu req) := by
  unfold down
  split
  · refine ⟨some req, rfl, fun q hq => ?_⟩
    cases hq
    exact h
  · exact sends_nothing rfl

theorem sendCo_sends {pdu : BssmapLePdu} (h : R (.nData s.connId (.bssmapLe pdu))) :
    Sends R (sendCo io scu s pdu) := by
  unfold sendCo
  split
  · exact (down_sends h).before rfl
  · exact sends_nothing rfl

theorem sendCl_sends {addr : SccpAddr} {pdu : BssmapLePdu} (h : R (.nUnitdata addr (.bssmapLe pdu))) :
    Sends R (sendCl io scu addr pdu) := by
  unfold sendCl
  split
  · exact (down_sends h).before rfl
  · exact sends_nothing rfl

/-- A response that cannot be encoded is not sent, so that there is room for another. -/
theorem gotTa_sends {k : CellId} {ta : UInt8}
    (h : ∀ resp, R (.nData s.connId (.bssmapLe (.performLocResp resp)))) :
    Sends R (gotTa L io scu cells s k ta) := by
  unfold gotTa failed
  split
  · exact sendCo_sends (h _)
  · split
    · exact sendCo_sends (h _)
    · exact (sendCo_sends (h _)).before rfl

theorem answer_sends {k : Ending}
    (h : ∀ resp, R (.nData s.connId (.bssmapLe (.performLocResp resp)))) :
    Sends R (answer L io scu cells s k) := by
  cases k with
  | locAbort => exact sends_nothing rfl
  | ta cellId ta => exact gotTa_sends h
  | failure cause => exact sendCo_sends (h _)

theorem discardAll_downs {p : PeerPtr} (ss : List Session) : (discardAll p ss).downs = [] := by
  induction ss with
  | nil => rfl
  | cons s ss ih =>
    rw [discardAll, downs_append, ih]
    rfl

end Effect

namespace Service

variable {L : Libosmo} {io : Io} {a a' : Service} {s : Session} {connId : ConnId} {m : Msg}
  {addr : SccpAddr} {x : LbPeer} {ev : Event} {l2 : List UInt8}

open Effect (Sends)

theorem finish_sends {k : Ending} (hon : ev.isOn a.world s.connId) :
    Sends (ev.Reply L a.world) (a.finishEffect L io s k) :=
  (Effect.answer_sends fun resp => .answer ev s.connId resp hon).then rfl

theorem data_sends (hon : ev.isOn a.world connId) :
    Sends (ev.Reply L a.world) (a.dataEffect L io connId m) := by
  cases hfind : a.sessions.find? fun s => s.connId = connId with
  | none =>
    rw [(data_none hfind).2]
    exact Effect.sends_nothing rfl
  | some s =>
    have hid : s.connId = connId := by simpa using List.find?_some hfind
    rw [(data_some hfind).2]
    refine Sends.before ?_ rfl
    cases m with
    | ignored => exact Effect.sends_nothing rfl
    | request pdu => exact Effect.sends_nothing rfl
    | ending k => exact finish_sends (hid.symm ▸ hon)

/-- A peer that an event is from has the address of the event, or had one like it. -/
theorem peer_called : (a.peer L addr).1.peerAddr = addr ∨
    L.sccpAddrRiCmp addr (a.peer L addr).1.peerAddr = 0 := by
  unfold peer
  split
  · rename_i y hy
    exact .inr (by simpa using List.find?_some hy)
  · exact .inl rfl

theorem connectTo_sends (hx : x.peerAddr = addr ∨ L.sccpAddrRiCmp addr x.peerAddr = 0) {w : World} :
    Sends (Event.Reply L w (.scu (.nConnect connId addr l2))) (a.connectToEffect L io x connId m) := by
  have hreset : Sends (Event.Reply L w (.scu (.nConnect connId addr l2)))
      (.sendCl io a.net.scu x.peerAddr .reset) :=
    Effect.sendCl_sends (.reset connId addr x.peerAddr l2 hx)
  unfold connectToEffect
  cases x.fi.state with
  | waitRxReset => exact hreset
  | waitRxResetAck => exact hreset.before rfl
  | discarding => exact Effect.sends_nothing rfl
  | ready =>
    cases m with
    | ignored => exact Effect.sends_nothing rfl
    | ending k => exact Effect.sends_nothing rfl
    | request pdu =>
      show Sends _ (a.openSessionEffect L io x.ptr connId pdu)
      by_cases hta : ∃ ta, pdu.apdu = some (.taLayer3 ta)
      · obtain ⟨ta, hta⟩ := hta
        rw [openSessionEffect_answered hta]
        exact (((((Effect.gotTa_sends fun resp => .answer _ connId resp rfl).before rfl).then
          rfl).then rfl).then rfl).then rfl
      · rw [openSessionEffect_pending fun ta h => hta ⟨ta, h⟩]
        exact ((Effect.sendCo_sends (.taRequest connId addr l2)).before rfl).then rfl

theorem unitdata_sends :
    Sends (Event.Reply L a.world (.scu (.nUnitdata addr l2))) (a.unitdataEffect L io addr l2) := by
  unfold unitdataEffect
  cases hmsgt : L.bssmapLeMsgt l2 with
  | reset =>
    refine Sends.before (Effect.sendCl_sends (.resetAck addr _ l2 hmsgt peer_called)) ?_
    simp only [Effect.downs_append, Effect.discardAll_downs]
    rfl
  | resetAck => exact Effect.sends_nothing rfl
  | other msgt => exact Effect.sends_nothing rfl

theorem effect_sends {i : Input} : Sends (i.ev.Reply L a.world) (a.effect L i) := by
  obtain ⟨ev, io⟩ := i
  cases ev with
  | scu prim =>
    refine Sends.before (e := .msgb) ?_ rfl
    cases prim with
    | nConnect connId addr l2 =>
      simp only [rxPrimEffect]
      split
      · exact Effect.sends_nothing rfl
      · refine Sends.before ?_ rfl
        unfold connectEffect
        split
        · exact Effect.sends_nothing rfl
        · exact (connectTo_sends peer_called).before rfl
    | nData connId l2 => exact data_sends rfl
    | nDisconnect connId l2 =>
      simp only [rxPrimEffect]
      split
      · have hdata : Sends (Event.Reply L a.world (.scu (.nDisconnect connId l2)))
            (a.dataEffect L io connId (L.msg l2)) := data_sends rfl
        exact hdata.then rfl
      · exact Effect.sends_nothing rfl
    | nUnitdata addr l2 => exact unitdata_sends
    | unsupported l2 => exact Effect.sends_nothing rfl
  | locReqTimer r =>
    show Sends _ (a.locReqTimeoutEffect L io r)
    cases hfind : a.sessions.find? fun s => s.req = r with
    | none =>
      rw [(locReqTimeout_none hfind).2]
      exact Effect.sends_nothing rfl
    | some s =>
      have hreq : s.req = r := by simpa using List.find?_some hfind
      rw [(locReqTimeout_some hfind).2]
      refine finish_sends ⟨s.lbConn, List.mem_map_of_mem (List.mem_of_find?_eq_some hfind), rfl, ?_⟩
      exact congrArg some hreq
  | lbPeerTimer p => exact Effect.sends_nothing rfl
  | vty cmd => exact Effect.sends_nothing rfl

theorem world_downs {i : Input} (ho : a.step L i = .ok a') :
    a'.world.downs = a.world.downs ++ (a.effect L i).downs := by
  obtain ⟨acts, hlog, hseen⟩ := (step_does ho).log
  show a'.net.log.filterMap Act.down? = a.net.log.filterMap Act.down? ++ _
  rw [hlog, List.filterMap_append, Effect.downs, ← hseen, filterMap_seen]
  intro b
  cases b <;> rfl

theorem step_downs {i : Input} (ho : a.step L i = .ok a') :
    ∃ o : Option ScuReq, a'.world.downs = a.world.downs ++ o.toList ∧
      ∀ q ∈ o, i.ev.Reply L a.world q := by
  obtain ⟨o, hdowns, hq⟩ := effect_sends (L := L) (a := a) (i := i)
  exact ⟨o, by rw [world_downs ho, hdowns], hq⟩

/-- Of the messages of a run, each one is due to an event of its own. -/
theorem run_downs {is : List Input} (hr : run (step L) a is = .ok a') :
    a'.world.downs.length ≤ a.world.downs.length + is.countP fun i => !i.ev.isQuiet := by
  refine run_history (H := fun js b => b.world.downs.length ≤ a.world.downs.length
    + js.countP fun i => !i.ev.isQuiet) (Nat.le_refl _) ?_ meets_true hr
  intro js b i b' _ hb _ ho
  obtain ⟨o, hdowns, hq⟩ := step_downs ho
  rw [hdowns, List.length_append, List.countP_append, ← Nat.add_assoc]
  refine Nat.add_le_add hb ?_
  cases o with
  | none => exact Nat.zero_le _
  | some q => simp [(hq q rfl).not_quiet]

end Service

/-- In every state reached, an event makes the process send one message at most, and only as
a reply: the TA request and the answer on the connection of the event, RESET and RESET
ACKNOWLEDGE to the peer that it came from. So there are never more messages than events
that ask for one. -/
theorem replies_only (L : Libosmo) {w : World} (hw : ReachableWorld L w) :
    (∀ i w', step L w i = .ok w' → ∃ o : Option ScuReq, w'.downs = w.downs ++ o.toList ∧
      ∀ q ∈ o, i.ev.Reply L w q) ∧
    (∀ is u, run (step L) w is = .ok u →
      u.downs.length ≤ w.downs.length + is.countP fun i => !i.ev.isQuiet) := by
  obtain ⟨scu, a, -, hwf, rfl⟩ := hw.service
  constructor
  · intro i w' hs
    obtain ⟨a', hr⟩ := step_record L hwf hs
    rw [hr.world]
    exact Service.step_downs hr.step
  · intro is u hr
    obtain ⟨a', ha, -, rfl⟩ := run_world_ok L hwf hr
    exact Service.run_downs ha

/-- A RESET while two requests are pending is answered, and they are not. -/
theorem replies_only_reset :
    let w := Sample.after Sample.twoConns
    let w' := Sample.after (Sample.twoConns ++ [Sample.resetFrom Sample.addrA])
    let ack : ScuReq := .nUnitdata Sample.addrA (.bssmapLe .resetAck)
    w'.downs = w.downs ++ [ack] ∧
    Event.Reply Sample.libosmo w (Sample.resetFrom Sample.addrA).ev ack := by
  intro w w' ack
  have hw : ReachableWorld Sample.libosmo w := Sample.reachable (by decide +kernel)
  obtain ⟨o, hdowns, hq⟩ := (replies_only Sample.libosmo hw).1 _ w'
    (Sample.step_after (by decide +kernel))
  have hack : w'.downs = w.downs ++ [ack] := by decide +kernel
  have ho : o.toList = [ack] := List.append_cancel_left (hdowns.symm.trans hack)
  cases o with
  | none => cases ho
  | some q =>
    cases ho
    exact ⟨hack, hq ack rfl⟩

end OsmoSmlc
