import Mathlib.Data.Fintype.Basic
import Mathlib.Tactic.FinCases
import OsmoSmlc.Properties.Disconnect

/-! The rules of the SCCP layer for one connection id: a connection is confirmed once, N-DATA
goes out only until it is disconnected, and no connection is asked for. -/
namespace OsmoSmlc
open Osmo

/-- What an act makes of a connection that is open or not, unless the act breaks the rules. -/
def Act.sccp (connId : ConnId) (isOpen : Bool) : Act → Option Bool
  | .connResp c => if c = connId then (if isOpen then none else some true) else some isOpen
  | .disconn c => some (isOpen && c != connId)
  | .sapDown (.nData c _) _ _ => if c = connId ∧ isOpen = false then none else some isOpen
  | .sapDown (.nConnect _ c _) _ _ => if c = connId then none else some isOpen
  | _ => some isOpen

/-- Whether the connection is open in the end, if all acts follow the rules. -/
def sccpRun (connId : ConnId) : Bool → List Act → Option Bool := List.foldlM (Act.sccp connId)

/-- The other side opens no connection twice, and with an N-DISCONNECT ends the request. -/
def SccpOrderly (L : Libosmo) (w : World) (i : Input) : Prop :=
  DisconnectFrees L w i ∧ ∀ connId addr l2, i.ev = .scu (.nConnect connId addr l2) →
    sccpRun connId false w.net.log ≠ some true

section Run

variable {connId : ConnId} {isOpen : Bool} {acts acts' : List Act}

@[simp] theorem sccpRun_nil : sccpRun connId isOpen [] = some isOpen := rfl

@[simp] theorem sccpRun_cons {a : Act} :
    sccpRun connId isOpen (a :: acts) = (a.sccp connId isOpen).bind (sccpRun connId · acts) := rfl

theorem sccpRun_append :
    sccpRun connId isOpen (acts ++ acts') = (sccpRun connId isOpen acts).bind (sccpRun connId · acts') :=
  List.foldlM_append

/-- What is not seen breaks no rule. -/
theorem sccpRun_seen : sccpRun connId isOpen (acts.filterMap Act.seen) = sccpRun connId isOpen acts := by
  unfold sccpRun
  rw [List.foldlM_filterMap]
  congr 1
  funext o a
  cases a with
  | sapDown req msg rc => cases req <;> rfl
  | _ => rfl

/-- Acts that change nothing and are within the rules. -/
theorem sccpRun_same (h : ∀ a ∈ acts, a.sccp connId isOpen = some isOpen) :
    sccpRun connId isOpen acts = some isOpen := by
  induction acts with
  | nil => rfl
  | cons a acts ih =>
    rw [sccpRun_cons, h a List.mem_cons_self]
    exact ih fun b hb => h b (List.mem_cons_of_mem a hb)

end Run

namespace Effect

variable {L : Libosmo} {io : Io} {scu : Bool} {cells : CellStore} {s : Session} {e f : Effect}
  {P P' Q Q' R : ConnId → Prop}

/-- If at first the connections of `P` are open, the rules are followed, and in the end those
of `Q` are open. -/
def Speaks (P : ConnId → Prop) (e : Effect) (Q : ConnId → Prop) : Prop :=
  ∀ connId isOpen, (P connId → isOpen = true) →
    ∃ isOpen', sccpRun connId isOpen e.acts = some isOpen' ∧ (Q connId → isOpen' = true)

theorem Speaks.trans (he : Speaks P e Q) (hf : Speaks Q f R) : Speaks P (e ++ f) R := by
  intro connId isOpen hP
  obtain ⟨o, ho, hQ⟩ := he connId isOpen hP
  obtain ⟨o', ho', hR⟩ := hf connId o hQ
  refine ⟨o', ?_, hR⟩
  rw [acts_append, sccpRun_append, ho]
  exact ho'

theorem Speaks.imp (h : Speaks P e Q) (hP : ∀ c, P c → P' c) (hQ : ∀ c, Q' c → Q c) :
    Speaks P' e Q' := by
  intro connId isOpen hopen
  obtain ⟨o, ho, ho'⟩ := h connId isOpen fun hc => hopen (hP connId hc)
  exact ⟨o, ho, fun hc => ho' (hQ connId hc)⟩

theorem speaks_same (h : ∀ a ∈ e.acts, ∀ c o, (P c → o = true) → a.sccp c o = some o) :
    Speaks P e P :=
  fun connId isOpen hP => ⟨isOpen, sccpRun_same fun a ha => h a ha connId isOpen hP, hP⟩

theorem act_speaks {a : Act} (h : ∀ c o, a.sccp c o = some o) : Speaks P (act a) P :=
  speaks_same fun b hb c o _ => by rw [List.mem_singleton.mp hb, h]

theorem nil_speaks : Speaks P nil P := speaks_same fun _ hb => absurd hb List.not_mem_nil

theorem request_speaks {c : ConnPtr} : Speaks P (request c) P :=
  speaks_same fun b hb c o _ => by rw [List.mem_singleton.mp hb]; rfl

theorem disconn_speaks {connId : ConnId} :
    Speaks P (act (.disconn connId)) fun c => P c ∧ c ≠ connId := by
  intro c isOpen hP
  refine ⟨isOpen && connId != c, rfl, fun hc => ?_⟩
  simp [hP hc.1, Ne.symm hc.2]

theorem sendCl_speaks {addr : SccpAddr} {pdu : BssmapLePdu} : Speaks P (sendCl io scu addr pdu) P := by
  refine speaks_same fun b hb c o _ => ?_
  obtain ⟨rc, rfl⟩ := sendCl_acts hb
  rfl

/-- On an open connection, its request may be answered. -/
theorem speaks_of_answers (h : ∀ a ∈ e.acts, a.Answers s) (hP : P s.connId) : Speaks P e P := by
  refine speaks_same fun a ha c o hc => ?_
  have hans := h a ha
  cases a with
  | sapDown req msg rc =>
    cases req with
    | nData connId pdu =>
      obtain rfl : connId = s.connId := hans
      have hopen : ¬(s.connId = c ∧ o = false) := by
        rintro ⟨rfl, rfl⟩
        exact Bool.false_ne_true (hc hP)
      simp only [Act.sccp, if_neg hopen]
    | nConnect _ _ _ => cases hans
    | nUnitdata _ _ => cases hans
  | connResp _ => cases hans
  | disconn _ => cases hans
  | _ => rfl

theorem sendCo_speaks {pdu : BssmapLePdu} (hP : P s.connId) : Speaks P (sendCo io scu s pdu) P :=
  speaks_of_answers (fun _ => sendCo_answers) hP

theorem gotTa_speaks {k : CellId} {ta : UInt8} (hP : P s.connId) :
    Speaks P (gotTa L io scu cells s k ta) P :=
  speaks_of_answers (fun _ => gotTa_answers) hP

theorem answer_speaks {k : Ending} (hP : P s.connId) : Speaks P (answer L io scu cells s k) P :=
  speaks_of_answers (fun _ => answer_answers) hP

theorem ended_speaks : Speaks P (ended s) fun c => P c ∧ c ≠ s.connId :=
  ((act_speaks fun _ _ => rfl).trans disconn_speaks).trans (act_speaks fun _ _ => rfl)

theorem discardAll_speaks {p : PeerPtr} (ss : List Session) : Speaks P (discardAll p ss) P := by
  induction ss with
  | nil => exact nil_speaks
  | cons s ss ih =>
    have hs : Speaks P (discarded p s) P :=
      ((act_speaks fun _ _ => rfl).trans (act_speaks fun _ _ => rfl)).trans
        (act_speaks fun _ _ => rfl)
    exact hs.trans ih

end Effect

namespace Service

variable {L : Libosmo} {io : Io} {a a' b : Service} {s : Session} {connId c : ConnId} {m : Msg}
  {addr : SccpAddr} {p : PeerPtr} {x : LbPeer}

open Effect (Speaks)

def Lists (a : Service) (connId : ConnId) : Prop := ∃ s ∈ a.sessions, s.connId = connId

theorem Lists.congr (h : a.Lists c) (hs : a.sessions = b.sessions) : b.Lists c := by
  unfold Lists
  rwa [← hs]

theorem drop_lists {n : Net} (hids : (a.sessions.map Session.connId).Nodup) (hs : s ∈ a.sessions)
    (h : (a.drop s n).Lists c) : a.Lists c ∧ c ≠ s.connId := by
  obtain ⟨t, ht, rfl⟩ := h
  obtain ⟨hmem, hne⟩ := KeyedList.mem_remove.mp ht
  refine ⟨⟨t, hmem, rfl⟩, fun hid => hne ?_⟩
  rw [List.inj_on_of_nodup_map hids hmem hs hid]

theorem finish_speaks {k : Ending} (hids : (a.sessions.map Session.connId).Nodup)
    (hs : s ∈ a.sessions) :
    Speaks a.Lists (a.finishEffect L io s k) (a.finish L io s k).Lists :=
  ((Effect.answer_speaks ⟨s, hs, rfl⟩).trans Effect.ended_speaks).imp (fun _ h => h)
    fun _ => drop_lists hids hs

theorem data_speaks (hids : (a.sessions.map Session.connId).Nodup) :
    Speaks a.Lists (a.dataEffect L io connId m) (a.data L io connId m).Lists := by
  cases hfind : a.sessions.find? fun s => s.connId = connId with
  | none =>
    rw [(data_none hfind).1, (data_none hfind).2]
    exact Effect.nil_speaks
  | some s =>
    rw [(data_some hfind).1, (data_some hfind).2]
    let b := a.emit (.peerDispatch s.peer .ready .msgUpCo)
    refine Speaks.trans (Q := a.Lists) (Effect.act_speaks fun _ _ => rfl) ?_
    cases m with
    | ignored => exact Effect.nil_speaks
    | request pdu => exact Effect.request_speaks
    | ending k =>
      have hf : Speaks b.Lists (b.finishEffect L io s k) (b.finish L io s k).Lists :=
        finish_speaks hids (List.mem_of_find?_eq_some hfind)
      exact hf

/-- A request on a connection that has been confirmed. -/
theorem openSession_speaks {pdu : PerformLocReq} (hfree : ¬a.Lists connId)
    (hcb : ∀ s ∈ a.sessions, s.conn < a.next.conn) :
    Speaks (fun c => a.Lists c ∨ c = connId) (a.openSessionEffect L io p connId pdu)
      (a.openSession L io p connId pdu).Lists := by
  let s := a.newSession L p connId pdu
  let t : Session := ⟨a.next.conn, connId, p, none, a.next.req, pdu⟩
  let P : ConnId → Prop := fun c => a.Lists c ∨ c = connId
  by_cases hta : ∃ ta, pdu.apdu = some (.taLayer3 ta)
  · obtain ⟨ta, hta⟩ := hta
    rw [openSession_answered hta, openSessionEffect_answered hta]
    have hremove : KeyedList.remove Session.conn (s :: a.sessions) s.conn = a.sessions :=
      KeyedList.remove_cons_self s fun t ht => Nat.ne_of_lt (hcb t ht)
    have hgot : Speaks P
        (.request s.conn ++ .gotTa L io a.net.scu a.cellLocations t pdu.cellId ta) P :=
      Effect.request_speaks.trans (Effect.gotTa_speaks (.inr rfl))
    refine ((((hgot.trans (Effect.act_speaks fun _ _ => rfl)).trans
      (Effect.act_speaks fun _ _ => rfl)).trans Effect.disconn_speaks).trans
      (Effect.act_speaks fun _ _ => rfl)).imp (fun _ h => h) ?_
    intro c hc
    have hold : a.Lists c := hc.congr hremove
    refine ⟨.inl hold, ?_⟩
    rintro rfl
    exact hfree hold
  · have hta' : ∀ ta, pdu.apdu ≠ some (.taLayer3 ta) := fun ta h => hta ⟨ta, h⟩
    rw [openSession_pending hta', openSessionEffect_pending hta']
    have hsend : Speaks P
        (.request s.conn ++ .sendCo io a.net.scu t (.connOrientedInfo .taRequest)) P :=
      Effect.request_speaks.trans (Effect.sendCo_speaks (.inr rfl))
    refine (hsend.trans (Effect.act_speaks fun _ _ => rfl)).imp (fun _ h => h) ?_
    rintro c ⟨t, ht, rfl⟩
    rcases List.mem_cons.mp ht with rfl | ht
    · exact .inr rfl
    · exact .inl ⟨t, ht, rfl⟩

theorem connectTo_speaks (hfree : ¬a.Lists connId) (hcb : ∀ s ∈ a.sessions, s.conn < a.next.conn)
    (ho : a.connectTo L io x connId m = .ok a') :
    Speaks (fun c => a.Lists c ∨ c = connId) (a.connectToEffect L io x connId m) a'.Lists := by
  have hgone : ∀ c, a.Lists c → (a.Lists c ∨ c = connId) ∧ c ≠ connId := by
    rintro c hc
    refine ⟨.inl hc, ?_⟩
    rintro rfl
    exact hfree hc
  unfold connectTo at ho
  unfold connectToEffect
  cases hst : x.fi.state with
  | waitRxReset =>
    rw [hst] at ho
    cases ho
    exact Effect.sendCl_speaks.imp (fun _ h => h) fun _ => .inl
  | waitRxResetAck =>
    rw [hst] at ho
    cases ho
    exact (Effect.disconn_speaks.trans Effect.sendCl_speaks).imp (fun _ h => h) hgone
  | discarding =>
    rw [hst] at ho
    cases ho
    exact Effect.nil_speaks.imp (fun _ h => h) fun _ => .inl
  | ready =>
    rw [hst] at ho
    cases m with
    | ignored =>
      cases ho
      exact (Effect.disconn_speaks.trans (Effect.act_speaks fun _ _ => rfl)).imp (fun _ h => h) hgone
    | request pdu =>
      cases ho
      exact openSession_speaks hfree hcb
    | ending k => cases ho

theorem connect_speaks (hfree : ¬a.Lists connId) (hcb : ∀ s ∈ a.sessions, s.conn < a.next.conn)
    (ho : a.connect L io connId addr m = .ok a') :
    Speaks (fun c => a.Lists c ∨ c = connId) (a.connectEffect L io connId addr m) a'.Lists := by
  have hany : ¬a.sessions.any (fun s => s.connId = connId) = true := by
    intro h
    obtain ⟨s, hs, hid⟩ := List.any_eq_true.mp h
    exact hfree ⟨s, hs, by simpa using hid⟩
  obtain ⟨hs, -, hc, -, -⟩ := peer_parts L a addr
  let x := (a.peer L addr).1
  let b := (a.peer L addr).2.emit (.peerDispatch x.ptr x.fi.state .msgUpCoInitial)
  have hb : b.sessions = a.sessions := hs
  unfold connect at ho
  unfold connectEffect
  rw [if_neg hany] at ho ⊢
  have hcb' : ∀ s ∈ b.sessions, s.conn < b.next.conn := by
    intro s hmem
    exact Nat.lt_of_lt_of_eq (hcb s (hb ▸ hmem)) hc.symm
  have ht := connectTo_speaks (a := b) (fun h => hfree (h.congr hb)) hcb' ho
  have he : b.connectToEffect L io x connId m = a.connectToEffect L io x connId m :=
    connectToEffect_peer
  rw [he] at ht
  have ht' : Speaks (fun c => a.Lists c ∨ c = connId) (a.connectToEffect L io x connId m) a'.Lists :=
    ht.imp (fun c h => h.imp_left fun hl => hl.congr hb) fun _ h => h
  exact (Effect.act_speaks fun _ _ => rfl).trans ht'

theorem unitdata_speaks {l2 : List UInt8} {msg : MsgbPtr} :
    Speaks a.Lists (a.unitdataEffect L io addr l2) (a.unitdata L io addr l2 msg).Lists := by
  obtain ⟨hs, -, -, -, -⟩ := peer_parts L a addr
  unfold unitdata unitdataEffect
  cases L.bssmapLeMsgt l2 with
  | reset =>
    refine ((((Effect.act_speaks fun _ _ => rfl).trans (Effect.act_speaks fun _ _ => rfl)).trans
      (Effect.discardAll_speaks _)).trans Effect.sendCl_speaks).imp (fun _ h => h) ?_
    rintro c ⟨t, ht, rfl⟩
    exact ⟨t, hs ▸ (List.mem_filter.mp ht).1, rfl⟩
  | resetAck =>
    refine ((Effect.act_speaks fun _ _ => rfl).trans (Effect.act_speaks fun _ _ => rfl)).imp
      (fun _ h => h) fun c hc => ?_
    dsimp only at hc
    split at hc
    · exact hc.congr hs
    · exact hc.congr hs
  | other msgt => exact (Effect.act_speaks fun _ _ => rfl).imp (fun _ h => h) fun c hc => hc.congr hs

/-- The state of one connection after the record, and after the next step. -/
theorem sccpRun_step {i : Input} {isOpen : Bool} (ho : a.step L i = .ok a')
    (hrun : sccpRun connId false a.net.log = some isOpen) :
    sccpRun connId false a'.net.log = sccpRun connId isOpen (a.effect L i).acts := by
  obtain ⟨acts, hlog, hseen⟩ := (step_does ho).log
  rw [hlog, sccpRun_append, hrun, ← hseen, sccpRun_seen]
  rfl

/-- An N-DISCONNECT that leaves no connection. -/
theorem disconnect_speaks {l2 : List UInt8} (h : a.WF) (hf : FreesConn L a.world connId l2)
    (ho : a.step L ⟨.scu (.nDisconnect connId l2), io⟩ = .ok a') :
    Speaks a.Lists (a.effect L ⟨.scu (.nDisconnect connId l2), io⟩) a'.Lists := by
  rcases step_disconnect ho with ⟨hkeep, n, rfl⟩ | ⟨s, hs, k, n, rfl, -, -, rfl, hacts⟩
  · have hnone : a.world.connById connId = none := by
      rcases hf with hc | ⟨hl2, hdec⟩
      · exact hc
      · obtain ⟨k, hk⟩ := Libosmo.msg_ending_iff.mpr hdec
        rcases hkeep with hc | rfl | hno
        · exact hc
        · exact absurd rfl hl2
        · exact absurd hk (hno k)
    rw [connTo_world_none] at hnone
    have hfind : a.sessions.find? (fun s => s.connId = connId) = none :=
      List.find?_eq_none.mpr fun s hs => by simpa using hnone s hs
    have he : (a.effect L ⟨.scu (.nDisconnect connId l2), io⟩).acts = [.disconn connId] := by
      show (Effect.msgb ++ a.rxPrimEffect L io (.nDisconnect connId l2)).acts = _
      simp only [rxPrimEffect, (data_none hfind).2, ite_self]
      rfl
    intro c isOpen hopen
    rw [he]
    refine Effect.disconn_speaks.imp (fun _ h => h) (fun c hc => ⟨hc, ?_⟩) c isOpen hopen
    rintro rfl
    obtain ⟨s, hs, hid⟩ := hc
    exact hnone s hs hid
  · intro c isOpen hopen
    rw [hacts]
    have hdone : Speaks a.Lists (.act (.peerDispatch s.peer .ready .msgUpCo)
        ++ a.finishEffect L io s k ++ .act (.disconn s.connId)) (a.drop s n).Lists :=
      (((Effect.act_speaks fun _ _ => rfl).trans (finish_speaks h.connIds hs)).trans
        Effect.disconn_speaks).imp (fun _ h => h) fun c hc =>
          ⟨hc, (drop_lists h.connIds hs hc).2⟩
    exact hdone c isOpen hopen

theorem step_speaks {i : Input} (h : a.WF) (hd : DisconnectFrees L a.world i)
    (hnew : ∀ connId addr l2, i.ev = .scu (.nConnect connId addr l2) → l2 = [])
    (ho : a.step L i = .ok a') : Speaks a.Lists (a.effect L i) a'.Lists := by
  obtain ⟨ev, io⟩ := i
  cases ev with
  | scu prim =>
    let b := a.setNet a.net.takeMsgb
    have hscu : a.net.takeMsgb.scu = a.net.scu := rfl
    have he : b.rxPrimEffect L io prim = a.rxPrimEffect L io prim := rxPrimEffect_setNet hscu
    cases prim with
    | nConnect connId addr l2 =>
      obtain rfl := hnew connId addr l2 rfl
      cases ho
      exact Effect.nil_speaks
    | nData connId l2 =>
      cases ho
      show Speaks b.Lists (a.rxPrimEffect L io _) (b.data L io connId (L.msg l2)).Lists
      rw [← he]
      exact data_speaks h.connIds
    | nDisconnect connId l2 => exact disconnect_speaks h (hd connId l2 rfl) ho
    | nUnitdata addr l2 =>
      cases ho
      show Speaks b.Lists (a.rxPrimEffect L io _) (b.unitdata L io addr l2 a.net.nextMsgb).Lists
      rw [← he]
      exact unitdata_speaks
    | unsupported l2 =>
      cases ho
      exact Effect.nil_speaks
  | locReqTimer r =>
    cases ho
    show Speaks a.Lists (a.locReqTimeoutEffect L io r) (a.locReqTimeout L io r).Lists
    cases hfind : a.sessions.find? fun s => s.req = r with
    | none =>
      rw [(locReqTimeout_none hfind).1, (locReqTimeout_none hfind).2]
      exact Effect.nil_speaks
    | some s =>
      rw [(locReqTimeout_some hfind).1, (locReqTimeout_some hfind).2]
      exact finish_speaks h.connIds (List.mem_of_find?_eq_some hfind)
  | lbPeerTimer p =>
    cases ho
    show Speaks a.Lists .nil (a.lbPeerTimeout p).Lists
    unfold lbPeerTimeout
    split
    · split
      · exact Effect.nil_speaks
      · exact Effect.nil_speaks
    · exact Effect.nil_speaks
  | vty cmd =>
    cases ho
    exact Effect.nil_speaks

/-- The rules were followed so far, and the listed connections are open. -/
def Follows (a : Service) : Prop :=
  ∀ connId, ∃ isOpen, sccpRun connId false a.net.log = some isOpen ∧ (a.Lists connId → isOpen = true)

theorem Follows.speaks {i : Input} (h : a.Follows) (hs : Speaks a.Lists (a.effect L i) a'.Lists)
    (ho : a.step L i = .ok a') : a'.Follows := by
  intro connId
  obtain ⟨isOpen, hrun, hopen⟩ := h connId
  rw [sccpRun_step ho hrun]
  exact hs connId isOpen hopen

/-- The N-CONNECT opens the connection that its request is then answered on. -/
theorem Follows.connect {l2 : List UInt8} (h : a.Follows) (hwf : a.WF) (hl : l2.length ≠ 0)
    (hnew : sccpRun connId false a.net.log ≠ some true)
    (ho : a.step L ⟨.scu (.nConnect connId addr l2), io⟩ = .ok a') : a'.Follows := by
  have hclosed : sccpRun connId false a.net.log = some false ∧ ¬a.Lists connId := by
    obtain ⟨isOpen, hrun, hopen⟩ := h connId
    cases isOpen with
    | true => exact absurd hrun hnew
    | false => exact ⟨hrun, fun hl => Bool.false_ne_true (hopen hl)⟩
  let b := (a.setNet a.net.takeMsgb).emit (.connResp connId)
  have hconn : Speaks (fun c => a.Lists c ∨ c = connId) (a.connectEffect L io connId addr (L.msg l2))
      a'.Lists := by
    simp only [step, handle, rxPrim, if_neg hl] at ho
    split at ho
    · rename_i d hd
      cases ho
      have hd' : Speaks (fun c => b.Lists c ∨ c = connId) (b.connectEffect L io connId addr (L.msg l2))
          d.Lists := connect_speaks hclosed.2 hwf.connBound hd
      have he : b.connectEffect L io connId addr (L.msg l2)
          = a.connectEffect L io connId addr (L.msg l2) :=
        connectEffect_setNet (a := a) (n := b.net) rfl
      rw [he] at hd'
      exact hd'
    · cases ho
  have heff : (a.effect L ⟨.scu (.nConnect connId addr l2), io⟩).acts
      = .connResp connId :: (a.connectEffect L io connId addr (L.msg l2)).acts := by
    show (Effect.msgb ++ a.rxPrimEffect L io (.nConnect connId addr l2)).acts = _
    simp only [rxPrimEffect, if_neg hl]
    rfl
  intro c
  obtain ⟨isOpen, hrun, hopen⟩ := h c
  rw [sccpRun_step ho hrun, heff, sccpRun_cons]
  by_cases hc : connId = c
  · obtain rfl := hc
    obtain rfl : isOpen = false := Option.some.inj (hrun.symm.trans hclosed.1)
    have hresp : Act.sccp connId false (.connResp connId) = some true := by
      simp [Act.sccp]
    rw [hresp]
    exact hconn connId true fun _ => rfl
  · have hresp : Act.sccp c isOpen (.connResp connId) = some isOpen := by
      simp [Act.sccp, hc]
    rw [hresp]
    exact hconn c isOpen fun h => hopen (h.resolve_right (Ne.symm hc))

theorem step_follows {i : Input} (h : a.Follows) (hwf : a.WF) (hi : SccpOrderly L a.world i)
    (ho : a.step L i = .ok a') : a'.Follows := by
  by_cases hconn : ∃ connId addr l2, i.ev = .scu (.nConnect connId addr l2) ∧ l2.length ≠ 0
  · obtain ⟨connId, addr, l2, hev, hl⟩ := hconn
    obtain ⟨ev, io⟩ := i
    obtain rfl : ev = _ := hev
    exact h.connect hwf hl (hi.2 connId addr l2 rfl) ho
  · refine h.speaks (step_speaks hwf hi.1 ?_ ho) ho
    intro connId addr l2 hev
    by_contra hl
    exact hconn ⟨connId, addr, l2, hev, fun h => hl (List.length_eq_zero_iff.mp h)⟩

end Service

/-- With SCCP peers that open no connection twice and end the request with their N-DISCONNECTs,
the process keeps to the rules of the SCCP layer: on each connection id, it confirms only
what is not open, sends N-DATA only on what is open, and asks for no connection of its own.
The listed connections are open. -/
theorem sccp_rules (L : Libosmo) {scu : Bool} {is : List Input} {w : World}
    (hm : Meets (step L) (SccpOrderly L) (World.init scu) is)
    (hr : run (step L) (World.init scu) is = .ok w) (connId : ConnId) :
    ∃ isOpen, sccpRun connId false w.net.log = some isOpen ∧
      ∀ x ∈ w.lbConns, x.sccpConnId = connId → isOpen = true := by
  have hinv : ∃ a : Service, a.WF ∧ w = a.world ∧ a.Follows := by
    refine run_invariant_of_meets (I := fun u => ∃ a : Service, a.WF ∧ u = a.world ∧ a.Follows)
      ?_ ?_ hm hr
    · rintro u i v ⟨a, hwf, rfl, hf⟩ hi hs
      obtain ⟨a', hr⟩ := step_record L hwf hs
      exact ⟨a', hr.wf, hr.world, Service.step_follows hf hwf hi hr.step⟩
    · refine ⟨Service.init scu, Service.init_wf scu, rfl, fun c => ⟨false, rfl, ?_⟩⟩
      rintro ⟨s, hs, -⟩
      cases hs
  obtain ⟨a, -, rfl, hf⟩ := hinv
  obtain ⟨isOpen, hrun, hopen⟩ := hf connId
  refine ⟨isOpen, hrun, fun x hx hid => ?_⟩
  obtain ⟨s, hs, rfl⟩ := List.mem_map.mp hx
  exact hopen ⟨s, hs, hid⟩

/-- An id is used again after its request was aborted. -/
theorem sccp_rules_again :
    let is : List Input := [Sample.resetFrom Sample.addrA,
      Sample.connect 1 Sample.addrA Sample.msgRequestA, Sample.disconnect 1 Sample.msgAbort,
      Sample.connect 1 Sample.addrA Sample.msgRequestA]
    sccpRun 1 false (Sample.after is).net.log = some true := by
  intro is
  have hm : Meets (step Sample.libosmo) (SccpOrderly Sample.libosmo) (World.init true) is := by
    refine Sample.meets_after fun k => ?_
    fin_cases k
    · exact ⟨fun _ _ h => (by cases h), fun _ _ _ h => (by cases h)⟩
    · refine ⟨fun _ _ h => (by cases h), fun _ _ _ h => ?_⟩
      cases h
      decide +kernel
    · refine ⟨fun _ _ h => ?_, fun _ _ _ h => (by cases h)⟩
      cases h
      exact .inr ⟨by decide, .bssmapLe .performLocAbort, by decide +kernel, rfl⟩
    · refine ⟨fun _ _ h => (by cases h), fun _ _ _ h => ?_⟩
      cases h
      decide +kernel
  obtain ⟨isOpen, hrun, hopen⟩ := sccp_rules Sample.libosmo hm (Sample.run_after (by decide +kernel)) 1
  have hlisted : ∃ x ∈ (Sample.after is).lbConns, x.sccpConnId = 1 := by decide +kernel
  obtain ⟨x, hx, hid⟩ := hlisted
  rw [hrun, hopen x hx hid]

end OsmoSmlc
