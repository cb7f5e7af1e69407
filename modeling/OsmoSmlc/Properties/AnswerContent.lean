import OsmoSmlc.Model.Sample
import OsmoSmlc.Service.Content

/-! What a location request is answered: for each way in which it can end, with the cells that
are configured when it ends. -/
namespace OsmoSmlc
open Osmo

/-- Whatever is answered and asked for in one event: a pending request is answered as the event
ends it, any other if it is accepted with its TA. A request that is accepted without it makes
the process ask for it once. -/
structure World.Answers (L : Libosmo) (w : World) (ev : Event) (w' : World) : Prop where
  pending : ∀ q ∈ w.locReqs, ∃ x ∈ w.lbConns, x.smlcLocReq = some q.ptr ∧
    .locReqAccepted q.ptr x.ptr q.req ∈ w.net.log ∧ q.latestCellId = q.req.cellId ∧
    responses q.ptr (newActs w w') = ((ev.endingFor L x.sccpConnId q.ptr).bind
      (Ending.response L w.cellLocations q.latestCellId)).toList
  atOnce : ∀ r, (∀ q ∈ w.locReqs, q.ptr ≠ r) → responses r (newActs w w')
    = (newActs w w').filterMap (Act.atOnce L w.cellLocations r)
  asked : ∀ r c pdu, .locReqAccepted r c pdu ∈ newActs w w' →
    ((newActs w w').filterMap Act.encoded?).count taRequest
      = if (Act.locReqAccepted r c pdu).wantsTa then 1 else 0
  unasked : (∀ r c pdu, .locReqAccepted r c pdu ∉ newActs w w') →
    ((newActs w w').filterMap Act.encoded?).count taRequest = 0

/-- What one more event does not change: cells are on the globe, and what is pending was
accepted. -/
structure Service.Kept (a : Service) : Prop where
  onGlobe : a.cellLocations.OnGlobe
  accepted : ∀ s ∈ a.sessions, .locReqAccepted s.req s.conn s.pdu ∈ a.net.log

def Act.accepts : Act → Bool
  | .locReqAccepted _ _ _ => true
  | _ => false

namespace Service

variable {L : Libosmo} {io : Io} {a a' : Service} {s : Session} {i : Input}

theorem init_kept (scu : Bool) : (init scu).Kept where
  onGlobe _ he := absurd he List.not_mem_nil
  accepted _ hs := absurd hs List.not_mem_nil

theorem bindRequest_cells (pdu : PerformLocReq) :
    (a.bindRequest L pdu).2.cellLocations = a.cellLocations := by
  rw [bindRequest_frame]

theorem connectTo_cells {x : LbPeer} {connId : ConnId} {m : Msg}
    (ho : a.connectTo L io x connId m = .ok a') : a'.cellLocations = a.cellLocations := by
  unfold connectTo at ho
  split at ho
  · cases ho
    rfl
  · cases ho
    rfl
  · cases m with
    | ignored =>
      cases ho
      rfl
    | request pdu =>
      cases ho
      by_cases hta : ∃ ta, pdu.apdu = some (.taLayer3 ta)
      · obtain ⟨ta, hta⟩ := hta
        rw [openSession_answered hta]
        exact bindRequest_cells pdu
      · rw [openSession_pending fun ta h => hta ⟨ta, h⟩]
        exact bindRequest_cells pdu
    | ending k => cases ho
  · cases ho
    rfl

theorem connect_cells {connId : ConnId} {addr : SccpAddr} {m : Msg}
    (ho : a.connect L io connId addr m = .ok a') : a'.cellLocations = a.cellLocations := by
  unfold connect at ho
  split at ho
  · cases ho
    rfl
  · exact (connectTo_cells ho).trans (peer_parts L a addr).2.2.2.1

theorem data_cells {connId : ConnId} {m : Msg} :
    (a.data L io connId m).cellLocations = a.cellLocations := by
  unfold data
  split
  · cases m with
    | ignored => rfl
    | request pdu => rfl
    | ending k => rfl
  · rfl

theorem unitdata_cells {addr : SccpAddr} {l2 : List UInt8} {msg : MsgbPtr} :
    (a.unitdata L io addr l2 msg).cellLocations = a.cellLocations := by
  have hpeer := (peer_parts L a addr).2.2.2.1
  unfold unitdata
  dsimp only
  split
  · exact hpeer
  · split
    · exact hpeer
    · exact hpeer
  · exact hpeer

theorem rxPrim_cells {msg : MsgbPtr} {prim : ScuInd} (ho : a.rxPrim L io msg prim = .ok a') :
    a'.cellLocations = a.cellLocations := by
  cases prim with
  | nConnect connId addr l2 =>
    simp only [rxPrim] at ho
    split at ho
    · cases ho
      rfl
    · exact (connect_cells ho).trans rfl
  | nData connId l2 =>
    cases ho
    exact data_cells
  | nDisconnect connId l2 =>
    cases ho
    by_cases hl : l2.length ≠ 0
    · rw [if_pos hl]
      exact data_cells
    · rw [if_neg hl]
      rfl
  | nUnitdata addr l2 =>
    cases ho
    exact unitdata_cells
  | unsupported l2 =>
    cases ho
    rfl

/-- Only a VTY command changes the cells. -/
theorem step_cells (ho : a.step L i = .ok a') : a'.cellLocations =
    match i.ev with
    | .vty cmd => (vtyCommand L a.cellLocations cmd).2
    | _ => a.cellLocations := by
  obtain ⟨ev, io⟩ := i
  cases ev with
  | scu prim =>
    simp only [step, handle] at ho
    split at ho
    · rename_i c hc
      cases ho
      exact (rxPrim_cells hc).trans rfl
    · cases ho
  | locReqTimer r =>
    cases ho
    show (a.locReqTimeout L io r).cellLocations = a.cellLocations
    unfold locReqTimeout
    split
    · rfl
    · rfl
  | lbPeerTimer p =>
    cases ho
    show (a.lbPeerTimeout p).cellLocations = a.cellLocations
    unfold lbPeerTimeout
    split
    · split
      · rfl
      · rfl
    · rfl
  | vty cmd =>
    cases ho
    rfl

/-- A session that is listed is not new, or its request is accepted. -/
theorem step_accepts (h : a.WF) (ho : a.step L i = .ok a') (hs : s ∈ a'.sessions) :
    s ∈ a.sessions ∨ .locReqAccepted s.req s.conn s.pdu ∈ (a.effect L i).acts := by
  rcases (step_turn h ho).mem hs with hmem | ⟨addr, l2, hev⟩
  · exact .inl hmem
  · obtain ⟨ev, io⟩ := i
    obtain rfl : ev = _ := hev
    by_cases hno : l2 = [] ∨ a.world.connById s.connId ≠ none
    · exact .inl ((step_connect_refused hno ho).1 ▸ hs)
    · rw [not_or, not_not] at hno
      obtain ⟨acts, hacts, hout⟩ := step_connect h hno.1 hno.2 ho
      rw [hacts]
      cases hout with
      | refused hx hss => exact .inl (hss ▸ hs)
      | disconnected hx hss => exact .inl (hss ▸ hs)
      | ignored hx hm hss => exact .inl (hss ▸ hs)
      | answered t ta hx hm hc hid hss => exact .inl (hss ▸ hs)
      | opened t hx hm hc hid hp hsub hss hbind =>
        rw [hss] at hs
        rcases List.mem_cons.mp hs with rfl | hs
        · exact .inr (by simp)
        · exact .inl hs

theorem Outcome.accepts_one {x : LbPeer} {connId : ConnId} {m : Msg} {acts : List Act}
    (h : a.Outcome L io x connId m acts a') : acts.countP Act.accepts ≤ 1 := by
  have hcl : ∀ addr pdu, (Effect.sendCl io a.net.scu addr pdu).acts.countP Act.accepts = 0 := by
    refine fun addr pdu => List.countP_eq_zero.mpr fun act hact => ?_
    obtain ⟨rc, rfl⟩ := Effect.sendCl_acts hact
    simp [Act.accepts]
  have hans : ∀ (s : Session) (e : Effect), (∀ act ∈ e.acts, act.Answers s) →
      e.acts.countP Act.accepts = 0 := by
    refine fun s e he => List.countP_eq_zero.mpr fun act hact => ?_
    have ha := he act hact
    cases act with
    | locReqAccepted r c pdu => exact absurd ha id
    | _ => simp [Act.accepts]
  cases h with
  | refused hx hs =>
    rw [hcl]
    exact Nat.zero_le 1
  | disconnected hx hs =>
    rw [List.countP_cons_of_neg (by simp [Act.accepts]), hcl]
    exact Nat.zero_le 1
  | ignored hx hm hs => simp [Act.accepts]
  | opened s hx hm hc hid hp hsub hs hbind =>
    rw [List.countP_append, List.countP_cons_of_neg (by simp [Act.accepts]),
      hans s _ fun act hact => Effect.sendCo_answers hact]
    simp [Act.accepts]
  | answered s ta hx hm hc hid hs =>
    rw [List.countP_append, List.countP_cons_of_neg (by simp [Act.accepts]),
      hans s _ fun act hact => Effect.gotTa_answers hact]
    exact Nat.le_refl 1

theorem effect_accepts_one (h : a.WF) (ho : a.step L i = .ok a') :
    (a.effect L i).acts.countP Act.accepts ≤ 1 := by
  by_cases hacc : ∃ r c pdu, .locReqAccepted r c pdu ∈ (a.effect L i).acts
  · obtain ⟨r, c, pdu, hacc⟩ := hacc
    obtain ⟨connId, addr, l2, acts, hev, hl2, hc, hacts, hout, hacc⟩ := step_accepted h ho hacc
    rw [hacts, List.countP_cons_of_neg (by simp [Act.accepts]),
      List.countP_cons_of_neg (by simp [Act.accepts])]
    exact hout.accepts_one
  · have hzero : (a.effect L i).acts.countP Act.accepts = 0 := by
      apply List.countP_eq_zero.mpr
      intro act hact
      cases act with
      | locReqAccepted r c pdu => exact absurd ⟨r, c, pdu, hact⟩ hacc
      | _ => simp [Act.accepts]
    rw [hzero]
    exact Nat.zero_le 1

theorem step_kept (h : a.WF) (hk : a.Kept) (ho : a.step L i = .ok a') : a'.Kept where
  onGlobe := by
    rw [step_cells ho]
    split
    · exact onGlobe_vtyCommand hk.onGlobe _
    · exact hk.onGlobe
  accepted s hs := by
    obtain ⟨acts, hlog, hseen⟩ := (step_does ho).log
    rw [hlog]
    rcases step_accepts h ho hs with hmem | hacc
    · exact List.mem_append_left acts (hk.accepted s hmem)
    · rw [← hseen, mem_seen rfl] at hacc
      exact List.mem_append_right _ hacc

theorem kept_of_reachable {scu : Bool} (h : Reachable (step L) (init scu) a) : a.Kept := by
  have hinv : a.WF ∧ a.Kept := by
    refine h.invariant (I := fun a => a.WF ∧ Service.Kept a) ?_ ⟨init_wf scu, init_kept scu⟩
    rintro b i b' ⟨hb, hk⟩ hs
    exact ⟨step_wf hb hs, step_kept hb hk hs⟩
  exact hinv.2

end Service

section Answers

variable {L : Libosmo} {a a' : Service} {i : Input} {w' : World}

theorem atOnce_newActs (hr : StepRecord L a i w' a') (cells : CellStore) (r : ReqPtr) :
    (newActs a.world w').filterMap (Act.atOnce L cells r)
      = (a.effect L i).acts.filterMap (Act.atOnce L cells r) := by
  rw [← hr.seen, filterMap_seen]
  intro b
  cases b <;> rfl

theorem countP_newActs (hr : StepRecord L a i w' a') {p : Act → Bool}
    (hp : ∀ b, p b = ((b.seen.map p).getD false)) :
    (newActs a.world w').countP p = (a.effect L i).acts.countP p := by
  rw [← hr.seen, List.countP_filterMap]
  exact List.countP_congr fun b _ => by rw [hp b]

/-- Of the elements with a property, all but one do not count where there is at most one. -/
theorem countP_of_unique {α : Type*} {p q : α → Bool} {l : List α} {x : α} (hle : l.countP p ≤ 1)
    (hx : x ∈ l) (hp : p x = true) (hq : ∀ y, q y = true → p y = true) :
    l.countP q = if q x then 1 else 0 := by
  obtain ⟨before, after, rfl⟩ := List.append_of_mem hx
  have hle₁ : before.countP q ≤ before.countP p := List.countP_mono_left fun y _ => hq y
  have hle₂ : after.countP q ≤ after.countP p := List.countP_mono_left fun y _ => hq y
  rw [List.countP_append, List.countP_cons, if_pos hp] at hle
  rw [List.countP_append, List.countP_cons]
  split
  · omega
  · omega

theorem encoded_newActs (hr : StepRecord L a i w' a') :
    (newActs a.world w').filterMap Act.encoded? = (a.effect L i).encs := by
  obtain ⟨acts, hlog, henc⟩ := hr.does.encs
  obtain rfl := hr.world
  have hnew : newActs a.world a'.world = acts := newActs_eq hlog
  rw [hnew, henc]

/-- The TA is asked for as often as a request without it is accepted. -/
theorem asked_newActs (hr : StepRecord L a i w' a') :
    ((newActs a.world w').filterMap Act.encoded?).count taRequest
      = (newActs a.world w').countP Act.wantsTa := by
  have hp : ∀ b : Act, b.wantsTa = (b.seen.map Act.wantsTa).getD false := by
    intro b
    cases b <;> rfl
  rw [encoded_newActs hr, countP_newActs hr hp]
  exact Service.effect_asksTa

theorem step_answers (h : a.WF) (hk : a.Kept) (hgad : L.GadEncodes) (hcv : L.ConvertsKinds)
    (hio : i.io.EncodesResponses) (hr : StepRecord L a i w' a') :
    a.world.Answers L i.ev w' where
  pending := by
    rintro q hq
    obtain ⟨s, hs, rfl⟩ := List.mem_map.mp hq
    refine ⟨s.lbConn, List.mem_map_of_mem hs, rfl, hk.accepted s hs, rfl, ?_⟩
    exact (responses_newActs hr s.req).trans (Service.effect_responses hgad hcv hk.onGlobe hio h hs)
  atOnce r hno := by
    have hreq : ∀ s ∈ a.sessions, s.req ≠ r := fun s hs => hno _ (List.mem_map_of_mem hs)
    rw [responses_newActs hr, atOnce_newActs hr]
    exact Service.effect_atOnce hgad hk.onGlobe hio hreq
  asked r c pdu hacc := by
    have hp : ∀ b : Act, b.accepts = (b.seen.map Act.accepts).getD false := by
      intro b
      cases b <;> rfl
    have hle : (newActs a.world w').countP Act.accepts ≤ 1 := by
      rw [countP_newActs hr hp]
      exact Service.effect_accepts_one h hr.step
    have hq : ∀ b : Act, b.wantsTa = true → b.accepts = true := by
      intro b hb
      cases b with
      | locReqAccepted r c pdu => rfl
      | _ => cases hb
    rw [asked_newActs hr]
    exact countP_of_unique hle hacc rfl hq
  unasked hno := by
    rw [asked_newActs hr]
    apply List.countP_eq_zero.mpr
    intro b hb
    cases b with
    | locReqAccepted r c pdu => exact absurd hb (hno r c pdu)
    | _ => simp [Act.wantsTa]

end Answers

/-- Every request is answered with the position of the cell that matches its latest cell id, as
the cells are then, or with the cause why there is none. -/
theorem answers_content (L : Libosmo) (hgad : L.GadEncodes) (hcv : L.ConvertsKinds)
    {w w' : World} {i : Input} (hw : ReachableWorld L w) (hio : i.io.EncodesResponses)
    (hs : step L w i = .ok w') : w.Answers L i.ev w' := by
  obtain ⟨scu, a, hreach, hwf, rfl⟩ := hw.service
  obtain ⟨a', hr⟩ := step_record L hwf hs
  exact step_answers hwf (Service.kept_of_reachable hreach) hgad hcv hio hr

/-- Two cells are configured. A pending request is answered with the one that matches in part the
CI of the TA Response, a request with its TA with the one that matches exactly. -/
theorem answers_content_two :
    let is : List Input := [⟨.vty (.lacCi "23" "42" "-45" "-90"), Sample.io⟩,
      ⟨.vty (.cgi "262" "42" "23" "43" "45" "90"), Sample.io⟩,
      Sample.resetFrom Sample.addrA, Sample.connect 1 Sample.addrA Sample.msgRequestA]
    responses 0 (newActs (Sample.after is)
        (Sample.after (is ++ [Sample.data 1 Sample.msgTaResponse43])))
      = [⟨some [16, 64, 0, 0, 64, 0, 0, 42], none⟩] ∧
    responses 1 (newActs (Sample.after is)
        (Sample.after (is ++ [Sample.connect 2 Sample.addrA Sample.msgRequestTaA])))
      = [⟨some [16, 192, 0, 0, 192, 0, 0, 42], none⟩] := by
  intro is
  have hgad : Sample.libosmo.GadEncodes := fun _ _ _ => (by decide : (0 : Int) < 8)
  have hio : Sample.io.EncodesResponses := fun _ => rfl
  have hw : ReachableWorld Sample.libosmo (Sample.after is) := Sample.reachable (by decide +kernel)
  have hdata := answers_content Sample.libosmo hgad Sample.libosmo_convertsKinds hw
    (i := Sample.data 1 Sample.msgTaResponse43) hio (Sample.step_after (by decide +kernel))
  have hconn := answers_content Sample.libosmo hgad Sample.libosmo_convertsKinds hw
    (i := Sample.connect 2 Sample.addrA Sample.msgRequestTaA) hio
    (Sample.step_after (by decide +kernel))
  constructor
  · let q : SmlcLocReq := ⟨0, ⟨.waitTa, false, true⟩, some 0, Sample.request Sample.imsiA, false, 0,
      Sample.cell, none⟩
    obtain ⟨x, hx, -, -, -, hresp⟩ := hdata.pending q (by decide +kernel)
    have hid : ∀ x ∈ (Sample.after is).lbConns, x.sccpConnId = 1 := by decide +kernel
    rw [hid x hx] at hresp
    apply hresp.trans
    decide +kernel
  · apply (hconn.atOnce 1 (by decide +kernel)).trans
    decide +kernel

end OsmoSmlc
