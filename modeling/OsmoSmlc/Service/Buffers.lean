import OsmoSmlc.Core.Resource
import OsmoSmlc.Service.Record

/-! What becomes of the message buffers while an event is handled: everything that is sent is
encoded, handed to the SCCP layer and freed in turn, but for one case of RESET ACKNOWLEDGE. -/
namespace OsmoSmlc
open Osmo

def Act.resource : Act → Resource
  | .bssapLeEnc _ (some msg) => .take msg
  | .sapDown _ msg _ => .use msg
  | .msgbFree msg => .release msg
  | _ => .other

/-- All buffers that were taken on the way from `n` to `n'` are freed in turn. -/
def Net.Balances (n n' : Net) : Prop :=
  ∃ acts, n'.log = n.log ++ acts ∧
    Resource.Balanced n.nextMsgb (acts.map Act.resource) n'.nextMsgb

namespace Net

variable {L : Libosmo} {io : Io} {n n' n'' : Net} {s : Session} {a : Act}

theorem Balances.refl : n.Balances n := ⟨[], by simp, .nil _⟩

theorem Balances.trans (h : n.Balances n') (h' : n'.Balances n'') : n.Balances n'' := by
  obtain ⟨acts, hlog, hb⟩ := h
  obtain ⟨acts', hlog', hb'⟩ := h'
  refine ⟨acts ++ acts', by rw [hlog', hlog, List.append_assoc], ?_⟩
  rw [List.map_append]
  exact hb.append hb'

theorem emit_balances (ha : a.resource = .other) : n.Balances (n.emit a) := by
  refine ⟨[a], rfl, ?_⟩
  rw [List.map_singleton, ha]
  exact .skip _

theorem Balances.emit (h : n.Balances n') (ha : a.resource = .other) : n.Balances (n'.emit a) :=
  h.trans (emit_balances ha)

/-- A buffer is only used on its way down. -/
theorem sccpLbSapDown_uses (io : Io) (req : ScuReq) (msg : MsgbPtr) (n : Net) :
    (n.sccpLbSapDown io req msg).2.nextMsgb = n.nextMsgb ∧
    ∃ acts, (n.sccpLbSapDown io req msg).2.log = n.log ++ acts ∧
      ∀ r ∈ acts.map Act.resource, r = .other ∨ r = .use msg := by
  unfold sccpLbSapDown
  cases n.scu with
  | false => exact ⟨rfl, [], by simp, by simp⟩
  | true =>
    simp only [Bool.not_true, Bool.false_eq_true, if_false]
    split
    · exact ⟨rfl, [_], rfl, by simp [Act.resource]⟩
    · exact ⟨rfl, [_], rfl, by simp [Act.resource]⟩

/-- The life of a buffer that is encoded, shown to some and sent. -/
theorem sent_balances {n₁ : Net} {pdu : BssapLePdu} {msg : MsgbPtr} {req : ScuReq}
    (henc : n.bssapLeEnc io pdu = (some msg, n₁)) (acts : List Act)
    (hacts : ∀ a ∈ acts, a.resource = .other) (hlog : n'.log = n₁.log ++ acts)
    (hnext : n'.nextMsgb = n₁.nextMsgb) :
    n.Balances ((n'.sccpLbSapDown io req msg).2.emit (.msgbFree msg)) := by
  obtain ⟨hnext', sent, hsent, huse⟩ := sccpLbSapDown_uses io req msg n'
  unfold bssapLeEnc at henc
  split at henc
  · cases henc
    refine ⟨.bssapLeEnc pdu (some n.nextMsgb) :: ((acts ++ sent) ++ [.msgbFree n.nextMsgb]), ?_, ?_⟩
    · show (n'.sccpLbSapDown io req n.nextMsgb).2.log ++ _ = _
      rw [hsent, hlog]
      simp [emit]
    · have hnext₂ : ((n'.sccpLbSapDown io req n.nextMsgb).2.emit (.msgbFree n.nextMsgb)).nextMsgb
          = n.nextMsgb + 1 := hnext'.trans hnext
      rw [hnext₂, List.map_cons, List.map_append]
      refine .owned n.nextMsgb _ fun r hr => ?_
      rw [List.map_append] at hr
      rcases List.mem_append.mp hr with hr | hr
      · obtain ⟨a, ha, rfl⟩ := List.mem_map.mp hr
        exact .inl (hacts a ha)
      · exact huse r hr
  · cases henc

/-- Failing to encode takes no buffer. -/
theorem unsent_balances {pdu : BssapLePdu} (henc : n.bssapLeEnc io pdu = (none, n')) :
    n.Balances n' := by
  unfold bssapLeEnc at henc
  split at henc
  · cases henc
  · cases henc
    exact emit_balances rfl

theorem sendCo_balances {pdu : BssmapLePdu} : n.Balances (n.sendCo io s pdu).2 := by
  unfold sendCo
  rcases henc : n.bssapLeEnc io (.bssmapLe pdu) with ⟨_ | msg, n₁⟩
  · exact unsent_balances henc
  · refine sent_balances henc [.peerDispatch s.peer .ready .msgDownCo,
      .msgDownCo s.conn (some s.req) (.bssmapLe pdu)] ?_ (by simp [emit]) rfl
    intro a ha
    simp only [List.mem_cons, List.not_mem_nil, or_false] at ha
    rcases ha with rfl | rfl
    · rfl
    · rfl

theorem failed_balances {cause : LcsCause} : n.Balances (n.failed io s cause) := sendCo_balances

theorem gotTa_balances {cells : CellStore} {k : CellId} {ta : UInt8} :
    n.Balances (n.gotTa L io cells s k ta) := by
  unfold gotTa
  cases estimate L cells k ta with
  | none => exact failed_balances
  | some raw =>
    have hsend : n.Balances (n.sendCo io s (.performLocResp ⟨some raw, none⟩)).2 := sendCo_balances
    dsimp only
    split
    · exact hsend.trans failed_balances
    · exact hsend

theorem answer_balances {cells : CellStore} {k : Ending} : n.Balances (n.answer L io cells s k) := by
  cases k with
  | locAbort => exact emit_balances rfl
  | ta cellId ta => exact gotTa_balances
  | failure cause => exact failed_balances

theorem ended_balances : n.Balances (n.ended s) :=
  ((emit_balances rfl).emit rfl).emit rfl

theorem discardAll_balances {p : PeerPtr} (ss : List Session) :
    n.Balances (ss.foldl (Net.discarded p) n) := by
  induction ss generalizing n with
  | nil => exact Balances.refl
  | cons s ss ih =>
    have hs : n.Balances (n.discarded p s) := ((emit_balances rfl).emit rfl).emit rfl
    exact hs.trans ih

theorem sendReset_balances {addr : SccpAddr} : n.Balances (n.sendReset io addr).2 := by
  unfold sendReset
  rcases henc : n.bssapLeEnc io (.bssmapLe .reset) with ⟨_ | msg, n₁⟩
  · exact unsent_balances henc
  · exact sent_balances henc [] (by simp) (by simp) rfl

/-- The acknowledgement of a RESET is freed if it was sent. -/
theorem sendResetAck_balances {addr : SccpAddr} {rx : MsgbPtr}
    (hsent : io.bssapLeEnc (.bssmapLe .resetAck) = true →
      n.scu = true ∧ io.sapDown (.nUnitdata addr (.bssmapLe .resetAck)) = 0) :
    n.Balances (n.sendResetAck io addr rx).2 := by
  unfold sendResetAck
  rcases henc : n.bssapLeEnc io (.bssmapLe .resetAck) with ⟨_ | msg, n₁⟩
  · exact unsent_balances henc
  · have hrc : (n₁.sccpLbSapDown io (.nUnitdata addr (.bssmapLe .resetAck)) msg).1 = 0 := by
      rcases bssapLeEnc_cases io (.bssmapLe .resetAck) n with ⟨henc', msg', n', h, hd⟩ | ⟨-, n', h, -⟩
      · cases henc.symm.trans h
        rw [sccpLbSapDown_rc, hd.scu, (hsent henc').1, if_pos rfl, (hsent henc').2]
      · cases henc.symm.trans h
    dsimp only
    rw [if_neg (not_not.mpr hrc)]
    exact sent_balances henc [] (by simp) (by simp) rfl

theorem request_balances {c : ConnPtr} :
    n.Balances (n.emit (.locReqRx c (some .ready))).countRequest := ⟨[_], rfl, .skip _⟩

end Net

namespace Service

variable {L : Libosmo} {io : Io} {a a' : Service} {s : Session} {connId : ConnId} {m : Msg}
  {addr : SccpAddr} {p : PeerPtr} {x : LbPeer}

theorem finish_balances {k : Ending} : a.net.Balances (a.finish L io s k).net :=
  Net.answer_balances.trans Net.ended_balances

theorem rx_balances : a.net.Balances (a.rx L io s m).net := by
  cases m with
  | ignored => exact Net.Balances.refl
  | request pdu => exact Net.request_balances
  | ending k => exact finish_balances

theorem openSession_balances {pdu : PerformLocReq} :
    a.net.Balances (a.openSession L io p connId pdu).net := by
  let s := a.newSession L p connId pdu
  let n := (a.net.emit (.locReqRx a.next.conn (some .ready))).countRequest
  have hreq : a.net.Balances n := Net.request_balances
  by_cases hta : ∃ ta, pdu.apdu = some (.taLayer3 ta)
  · obtain ⟨ta, hta⟩ := hta
    rw [openSession_answered hta]
    have hgot : n.Balances (n.gotTa L io a.cellLocations s pdu.cellId ta) := Net.gotTa_balances
    exact ((((hreq.trans hgot).emit rfl).emit rfl).emit rfl).emit rfl
  · rw [openSession_pending fun ta h => hta ⟨ta, h⟩]
    have hsend : n.Balances (n.sendCo io s (.connOrientedInfo .taRequest)).2 := Net.sendCo_balances
    exact (hreq.trans hsend).emit rfl

theorem connectTo_balances (ho : a.connectTo L io x connId m = .ok a') :
    a.net.Balances a'.net := by
  unfold connectTo at ho
  split at ho
  · cases ho
    exact Net.sendReset_balances
  · cases ho
    exact (Net.emit_balances rfl).trans Net.sendReset_balances
  · cases m with
    | ignored =>
      cases ho
      exact (Net.emit_balances rfl).emit rfl
    | request pdu =>
      cases ho
      exact openSession_balances
    | ending k => cases ho
  · cases ho
    exact Net.Balances.refl

theorem connect_balances (ho : a.connect L io connId addr m = .ok a') :
    a.net.Balances a'.net := by
  unfold connect at ho
  split at ho
  · cases ho
    exact Net.emit_balances rfl
  · let x := (a.peer L addr).1
    let b := (a.peer L addr).2.emit (.peerDispatch x.ptr x.fi.state .msgUpCoInitial)
    have hup : (a.peer L addr).2.net.Balances b.net := Net.emit_balances rfl
    rw [peer_net] at hup
    exact hup.trans (connectTo_balances ho)

theorem data_balances : a.net.Balances (a.data L io connId m).net := by
  unfold data
  split
  · exact (Net.emit_balances rfl).trans rx_balances
  · exact Net.Balances.refl

/-- The RESET ACKNOWLEDGE that a message calls for is taken by the SCCP layer, if any is sent. -/
def AckTaken (L : Libosmo) (io : Io) (a : Service) : ScuInd → Prop
  | .nUnitdata addr l2 => L.bssmapLeMsgt l2 = .reset →
      io.bssapLeEnc (.bssmapLe .resetAck) = true → a.net.scu = true ∧
        io.sapDown (.nUnitdata (a.peer L addr).1.peerAddr (.bssmapLe .resetAck)) = 0
  | _ => True

theorem unitdata_balances {l2 : List UInt8} {msg : MsgbPtr}
    (hack : AckTaken L io a (.nUnitdata addr l2)) :
    a.net.Balances (a.unitdata L io addr l2 msg).net := by
  let x := (a.peer L addr).1
  let b := (a.peer L addr).2.emit (.peerDispatch x.ptr x.fi.state .msgUpCl)
  have hup : a.net.Balances b.net := by
    rw [← peer_net L a addr]
    exact Net.emit_balances rfl
  unfold unitdata
  cases hm : L.bssmapLeMsgt l2 with
  | reset =>
    let c := b.emit (.peerDispatch x.ptr x.fi.state .rxReset)
    have hdis : c.net.Balances (c.discardAll x.ptr).net := Net.discardAll_balances _
    have hdoes : c.net.Does _ (c.discardAll x.ptr).net := Net.discardAll_does _
    have hscu : (c.discardAll x.ptr).net.scu = a.net.scu := by
      rw [hdoes.scu, ← peer_net L a addr]
      rfl
    have hsend : (c.discardAll x.ptr).net.Balances
        ((c.discardAll x.ptr).net.sendResetAck io x.peerAddr msg).2 :=
      Net.sendResetAck_balances fun henc => hscu ▸ hack hm henc
    exact ((hup.emit rfl).trans hdis).trans hsend
  | resetAck =>
    dsimp only
    split
    · exact hup.emit rfl
    · exact hup.emit rfl
  | other msgt => exact hup

theorem rxPrim_balances {msg : MsgbPtr} {prim : ScuInd} (hack : AckTaken L io a prim)
    (ho : a.rxPrim L io msg prim = .ok a') : a.net.Balances a'.net := by
  cases prim with
  | nConnect connId addr l2 =>
    simp only [rxPrim] at ho
    split at ho
    · cases ho
      exact Net.Balances.refl
    · exact (Net.emit_balances rfl).trans (connect_balances ho)
  | nData connId l2 =>
    cases ho
    exact data_balances
  | nDisconnect connId l2 =>
    cases ho
    by_cases hl : l2.length ≠ 0
    · rw [if_pos hl]
      exact data_balances.emit rfl
    · rw [if_neg hl]
      exact Net.emit_balances rfl
  | nUnitdata addr l2 =>
    cases ho
    exact unitdata_balances hack
  | unsupported l2 =>
    cases ho
    exact Net.Balances.refl

end Service
end OsmoSmlc
