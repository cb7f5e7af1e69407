import OsmoSmlc.Service.Simulation

/-! What one event does towards the outside: the acts with the names of buffers left out,
and the changes of the counters. It depends on the service and on the answers of the
libraries only, not on what was recorded or counted before. -/
namespace OsmoSmlc
open Osmo

/-- The act without the name of its buffer; what concerns only a buffer is not seen. -/
def Act.seen : Act → Option Act
  | .bssapLeEnc _ _ => none
  | .msgbFree _ => none
  | .sapDown req _ rc => some (.sapDown req 0 rc)
  | a => some a

instance : Add Ctrs where
  add c d := ⟨c.rxDt1PerformLocationRequest + d.rxDt1PerformLocationRequest,
    c.txErrConnNotReady + d.txErrConnNotReady, c.txErrSend + d.txErrSend,
    c.txSuccess + d.txSuccess⟩

instance : Zero Ctrs where
  zero := ⟨0, 0, 0, 0⟩

namespace Ctrs

variable {c d e : Ctrs}

theorem add_def : c + d = ⟨c.rxDt1PerformLocationRequest + d.rxDt1PerformLocationRequest,
    c.txErrConnNotReady + d.txErrConnNotReady, c.txErrSend + d.txErrSend,
    c.txSuccess + d.txSuccess⟩ := rfl

@[simp] theorem add_zero : c + 0 = c := rfl

@[simp] theorem zero_add : 0 + c = c := by
  show (⟨0 + _, 0 + _, 0 + _, 0 + _⟩ : Ctrs) = c
  simp

theorem add_assoc : c + d + e = c + (d + e) := by
  simp only [add_def, Nat.add_assoc]

theorem add_right_comm : c + d + e = c + e + d := by
  simp only [add_def, Nat.add_right_comm]

end Ctrs

/-- The message that an act encodes, or fails to. -/
def Act.encoded? : Act → Option BssapLePdu
  | .bssapLeEnc pdu _ => some pdu
  | _ => none

theorem Act.encoded?_of_seen {a b : Act} (h : a.seen = some b) : a.encoded? = none := by
  cases a with
  | bssapLeEnc pdu msg => cases h
  | _ => rfl

structure Effect where
  acts : List Act
  ctrs : Ctrs
  msgbs : Nat
  encs : List BssapLePdu

namespace Effect

def nil : Effect := ⟨[], 0, 0, []⟩

def act (a : Act) : Effect := ⟨[a], 0, 0, []⟩

/-- One more message buffer. -/
def msgb : Effect := ⟨[], 0, 1, []⟩

/-- The attempt to encode a message. -/
def enc (pdu : BssapLePdu) : Effect := ⟨[], 0, 0, [pdu]⟩

instance : Append Effect where
  append e f := ⟨e.acts ++ f.acts, e.ctrs + f.ctrs, e.msgbs + f.msgbs, e.encs ++ f.encs⟩

section Append

variable {e f g : Effect} {a : Act}

@[simp] theorem acts_nil : nil.acts = [] := rfl
@[simp] theorem acts_act : (act a).acts = [a] := rfl
@[simp] theorem acts_msgb : msgb.acts = [] := rfl
@[simp] theorem acts_enc {pdu : BssapLePdu} : (enc pdu).acts = [] := rfl
@[simp] theorem acts_append : (e ++ f).acts = e.acts ++ f.acts := rfl
@[simp] theorem ctrs_append : (e ++ f).ctrs = e.ctrs + f.ctrs := rfl
@[simp] theorem msgbs_append : (e ++ f).msgbs = e.msgbs + f.msgbs := rfl
@[simp] theorem encs_nil : nil.encs = [] := rfl
@[simp] theorem encs_act : (act a).encs = [] := rfl
@[simp] theorem encs_msgb : msgb.encs = [] := rfl
@[simp] theorem encs_enc {pdu : BssapLePdu} : (enc pdu).encs = [pdu] := rfl
@[simp] theorem encs_append : (e ++ f).encs = e.encs ++ f.encs := rfl

@[simp] theorem nil_append : nil ++ e = e := by
  show (⟨[] ++ e.acts, 0 + e.ctrs, 0 + e.msgbs, [] ++ e.encs⟩ : Effect) = e
  simp

@[simp] theorem append_nil : e ++ nil = e := by
  show (⟨e.acts ++ [], e.ctrs + 0, e.msgbs + 0, e.encs ++ []⟩ : Effect) = e
  simp

end Append

variable (L : Libosmo) (io : Io) (scu : Bool)

/-- A request to the SCCP layer. -/
def down (req : ScuReq) : Effect :=
  if scu then
    ⟨[.sapDown req 0 (io.sapDown req)],
      if io.sapDown req ≥ 0 then ⟨0, 0, 0, 1⟩ else ⟨0, 0, 1, 0⟩, 0, []⟩
  else ⟨[], ⟨0, 1, 0, 0⟩, 0, []⟩

def sendCo (s : Session) (pdu : BssmapLePdu) : Effect :=
  if io.bssapLeEnc (.bssmapLe pdu) then
    enc (.bssmapLe pdu) ++ msgb ++ act (.peerDispatch s.peer .ready .msgDownCo)
      ++ act (.msgDownCo s.conn (some s.req) (.bssmapLe pdu))
      ++ down io scu (.nData s.connId (.bssmapLe pdu))
  else enc (.bssmapLe pdu)

def failed (s : Session) (cause : LcsCause) : Effect :=
  sendCo io scu s (.performLocResp ⟨none, some cause⟩)

def gotTa (cells : CellStore) (s : Session) (cellId : CellId) (ta : UInt8) : Effect :=
  match Net.estimate L cells cellId ta with
  | none => failed io scu s .facilityNotsupp
  | some raw =>
      if io.bssapLeEnc (.bssmapLe (.performLocResp ⟨some raw, none⟩)) then
        sendCo io scu s (.performLocResp ⟨some raw, none⟩)
      else enc (.bssmapLe (.performLocResp ⟨some raw, none⟩)) ++ failed io scu s .systemFailure

def answer (cells : CellStore) (s : Session) : Ending → Effect
  | .locAbort => act (.locReqAbort s.req)
  | .ta cellId ta => gotTa L io scu cells s (updateCi L s.pdu.cellId cellId.toInt16) ta
  | .failure cause => failed io scu s cause

def ended (s : Session) : Effect :=
  act (.locReqCleanup s.req) ++ act (.disconn s.connId) ++ act (.connFree s.conn)

def discarded (p : PeerPtr) (s : Session) : Effect :=
  act (.resetDiscard p (some s.req)) ++ act (.locReqCleanup s.req) ++ act (.connFree s.conn)

def discardAll (p : PeerPtr) : List Session → Effect
  | [] => nil
  | s :: ss => discarded p s ++ discardAll p ss

/-- A connectionless message to a peer. -/
def sendCl (addr : SccpAddr) (pdu : BssmapLePdu) : Effect :=
  if io.bssapLeEnc (.bssmapLe pdu) then
    enc (.bssmapLe pdu) ++ msgb ++ down io scu (.nUnitdata addr (.bssmapLe pdu))
  else enc (.bssmapLe pdu)

/-- Whether the SCCP layer accepts a connectionless message to a peer. -/
def accepted (addr : SccpAddr) (pdu : BssmapLePdu) : Bool :=
  io.bssapLeEnc (.bssmapLe pdu) && scu && io.sapDown (.nUnitdata addr (.bssmapLe pdu)) == 0

end Effect

/-- What leads from `n` to `n'`. -/
structure Net.Does (n : Net) (e : Effect) (n' : Net) : Prop where
  log : ∃ acts, n'.log = n.log ++ acts ∧ acts.filterMap Act.seen = e.acts
  ctrs : n'.ctrs = n.ctrs + e.ctrs
  nextMsgb : n'.nextMsgb = n.nextMsgb + e.msgbs
  scu : n'.scu = n.scu
  encs : ∃ acts, n'.log = n.log ++ acts ∧ acts.filterMap Act.encoded? = e.encs

namespace Net

variable {L : Libosmo} {io : Io} {n n' n'' : Net} {e f : Effect} {s : Session}

theorem Does.refl : n.Does .nil n := ⟨⟨[], by simp, rfl⟩, rfl, rfl, rfl, ⟨[], by simp, rfl⟩⟩

theorem Does.trans (h : n.Does e n') (h' : n'.Does f n'') : n.Does (e ++ f) n'' := by
  obtain ⟨acts, hlog, hacts⟩ := h.log
  obtain ⟨acts', hlog', hacts'⟩ := h'.log
  obtain ⟨enc, hlog₁, henc⟩ := h.encs
  obtain ⟨enc', hlog₁', henc'⟩ := h'.encs
  refine ⟨⟨acts ++ acts', ?_, ?_⟩, ?_, ?_, h'.scu.trans h.scu, ⟨enc ++ enc', ?_, ?_⟩⟩
  · rw [hlog', hlog, List.append_assoc]
  · rw [List.filterMap_append, hacts, hacts']
    rfl
  · rw [h'.ctrs, h.ctrs, Ctrs.add_assoc]
    rfl
  · rw [h'.nextMsgb, h.nextMsgb, Nat.add_assoc]
    rfl
  · rw [hlog₁', hlog₁, List.append_assoc]
  · rw [List.filterMap_append, henc, henc']
    rfl

theorem emit_does (a : Act) (ha : a.seen = some a) : n.Does (.act a) (n.emit a) :=
  ⟨⟨[a], rfl, by simp [ha]⟩, rfl, rfl, rfl, ⟨[a], rfl, by simp [Act.encoded?_of_seen ha]⟩⟩

/-- Releasing a buffer leaves nothing to be seen. -/
theorem Does.free (h : n.Does e n') (msg : MsgbPtr) : n.Does e (n'.emit (.msgbFree msg)) := by
  have hn : n'.Does .nil (n'.emit (.msgbFree msg)) :=
    ⟨⟨[_], rfl, rfl⟩, rfl, rfl, rfl, ⟨[_], rfl, rfl⟩⟩
  have ht := h.trans hn
  rwa [Effect.append_nil] at ht

theorem Does.emit (h : n.Does e n') (a : Act) (ha : a.seen = some a) :
    n.Does (e ++ .act a) (n'.emit a) := h.trans (emit_does a ha)

theorem takeMsgb_does : n.Does .msgb n.takeMsgb :=
  ⟨⟨[], by simp [takeMsgb], rfl⟩, rfl, rfl, rfl, ⟨[], by simp [takeMsgb], rfl⟩⟩

theorem sccpLbSapDown_does (io : Io) (req : ScuReq) (msg : MsgbPtr) :
    n.Does (.down io n.scu req) (n.sccpLbSapDown io req msg).2 := by
  unfold sccpLbSapDown Effect.down
  cases hs : n.scu with
  | false => exact ⟨⟨[], by simp, rfl⟩, rfl, rfl, by simp [hs], ⟨[], by simp, rfl⟩⟩
  | true =>
    simp only [Bool.not_true, Bool.false_eq_true, if_false, if_true]
    split
    · exact ⟨⟨[_], rfl, rfl⟩, rfl, rfl, rfl, ⟨[_], rfl, rfl⟩⟩
    · exact ⟨⟨[_], rfl, rfl⟩, rfl, rfl, rfl, ⟨[_], rfl, rfl⟩⟩

theorem sccpLbSapDown_rc {req : ScuReq} {msg : MsgbPtr} :
    (n.sccpLbSapDown io req msg).1 = if n.scu then io.sapDown req else -eio := by
  unfold sccpLbSapDown
  cases n.scu with
  | false => rfl
  | true =>
    simp only [Bool.not_true, Bool.false_eq_true, if_false, if_true]
    split <;> rfl

/-- Encoding takes a buffer, or fails. -/
theorem bssapLeEnc_cases (io : Io) (pdu : BssapLePdu) (n : Net) :
    (io.bssapLeEnc pdu = true ∧ ∃ msg n', n.bssapLeEnc io pdu = (some msg, n') ∧
      n.Does (.enc pdu ++ .msgb) n') ∨
    (io.bssapLeEnc pdu = false ∧ ∃ n', n.bssapLeEnc io pdu = (none, n') ∧
      n.Does (.enc pdu) n') := by
  unfold bssapLeEnc
  cases henc : io.bssapLeEnc pdu with
  | true =>
    refine .inl ⟨rfl, _, _, rfl, ?_⟩
    exact ⟨⟨[_], rfl, rfl⟩, rfl, rfl, rfl, ⟨[_], rfl, rfl⟩⟩
  | false => exact .inr ⟨rfl, _, rfl, ⟨[_], rfl, rfl⟩, rfl, rfl, rfl, ⟨[_], rfl, rfl⟩⟩

theorem sendCo_does {pdu : BssmapLePdu} :
    n.Does (.sendCo io n.scu s pdu) (n.sendCo io s pdu).2 := by
  unfold sendCo Effect.sendCo
  rcases bssapLeEnc_cases io (.bssmapLe pdu) n with ⟨henc, msg, n1, h, h1⟩ | ⟨henc, n1, h, h1⟩
  · rw [h, if_pos henc]
    have h2 := (h1.emit (.peerDispatch s.peer .ready .msgDownCo) rfl).emit
      (.msgDownCo s.conn (some s.req) (.bssmapLe pdu)) rfl
    rw [← h1.scu]
    exact (h2.trans (sccpLbSapDown_does io _ _)).free _
  · rw [h, if_neg (by simp [henc])]
    exact h1

theorem sendCo_rc {pdu : BssmapLePdu} :
    (n.sendCo io s pdu).1 = if io.bssapLeEnc (.bssmapLe pdu) then 0 else -einval := by
  unfold sendCo
  rcases bssapLeEnc_cases io (.bssmapLe pdu) n with ⟨henc, msg, n1, h, h1⟩ | ⟨henc, n1, h, h1⟩
  · rw [h, if_pos henc]
  · rw [h, if_neg (by simp [henc])]

theorem failed_does {cause : LcsCause} :
    n.Does (.failed io n.scu s cause) (n.failed io s cause) := sendCo_does

/-- A failed attempt to send the estimate leaves nothing to be seen. -/
theorem gotTa_does {cells : CellStore} {cellId : CellId} {ta : UInt8} :
    n.Does (.gotTa L io n.scu cells s cellId ta) (n.gotTa L io cells s cellId ta) := by
  unfold gotTa Effect.gotTa
  cases estimate L cells cellId ta with
  | none => exact failed_does
  | some raw =>
    let pdu : BssmapLePdu := .performLocResp ⟨some raw, none⟩
    have hd : n.Does _ (n.sendCo io s pdu).2 := sendCo_does
    have hrc : (n.sendCo io s pdu).1 = _ := sendCo_rc
    dsimp only
    cases henc : io.bssapLeEnc (.bssmapLe pdu) with
    | true =>
      rw [henc, if_pos rfl] at hrc
      rw [if_pos rfl, if_neg (not_not.mpr hrc)]
      exact hd
    | false =>
      rw [henc, if_neg Bool.false_ne_true] at hrc
      have henc' : Effect.sendCo io n.scu s pdu = .enc (.bssmapLe pdu) := by
        simp [Effect.sendCo, henc]
      have hne : (n.sendCo io s pdu).1 ≠ 0 := by
        rw [hrc]
        decide
      rw [henc'] at hd
      rw [if_neg Bool.false_ne_true, if_pos hne]
      have hf : (n.sendCo io s pdu).2.Does _ ((n.sendCo io s pdu).2.failed io s .systemFailure) :=
        failed_does
      rw [hd.scu] at hf
      exact hd.trans hf

theorem answer_does {cells : CellStore} {k : Ending} :
    n.Does (.answer L io n.scu cells s k) (n.answer L io cells s k) := by
  cases k with
  | locAbort => exact emit_does _ rfl
  | ta cellId ta => exact gotTa_does
  | failure cause => exact failed_does

theorem ended_does : n.Does (.ended s) (n.ended s) :=
  ((emit_does (.locReqCleanup s.req) rfl).emit (.disconn s.connId) rfl).emit (.connFree s.conn) rfl

theorem discardAll_does {p : PeerPtr} (ss : List Session) :
    n.Does (.discardAll p ss) (ss.foldl (discarded p) n) := by
  induction ss generalizing n with
  | nil => exact Does.refl
  | cons s ss ih =>
    have hs : n.Does (.discarded p s) (n.discarded p s) :=
      ((emit_does (.resetDiscard p (some s.req)) rfl).emit (.locReqCleanup s.req) rfl).emit
        (.connFree s.conn) rfl
    exact hs.trans ih

theorem sendReset_does {addr : SccpAddr} :
    n.Does (.sendCl io n.scu addr .reset) (n.sendReset io addr).2 ∧
    (n.sendReset io addr).1
      = if Effect.accepted io n.scu addr .reset then .waitRxResetAck else .waitRxReset := by
  unfold sendReset Effect.sendCl Effect.accepted
  rcases bssapLeEnc_cases io (.bssmapLe .reset) n with ⟨henc, msg, n1, h, h1⟩ | ⟨henc, n1, h, h1⟩
  · rw [h, if_pos henc, ← h1.scu, henc]
    refine ⟨(h1.trans (sccpLbSapDown_does io _ _)).free _, ?_⟩
    dsimp only
    rw [sccpLbSapDown_rc]
    cases n1.scu with
    | false => rfl
    | true =>
      by_cases hrc : io.sapDown (.nUnitdata addr (.bssmapLe .reset)) = 0
      · simp [hrc]
      · simp [hrc]
  · rw [h, if_neg (by simp [henc]), henc]
    exact ⟨h1, rfl⟩

theorem sendResetAck_does {addr : SccpAddr} {rx : MsgbPtr} :
    n.Does (.sendCl io n.scu addr .resetAck) (n.sendResetAck io addr rx).2 ∧
    (n.sendResetAck io addr rx).1
      = if Effect.accepted io n.scu addr .resetAck then .ready else .waitRxReset := by
  unfold sendResetAck Effect.sendCl Effect.accepted
  rcases bssapLeEnc_cases io (.bssmapLe .resetAck) n with
    ⟨henc, msg, n1, h, h1⟩ | ⟨henc, n1, h, h1⟩
  · rw [h, if_pos henc, ← h1.scu, henc]
    dsimp only
    have hd := h1.trans (sccpLbSapDown_does io (.nUnitdata addr (.bssmapLe .resetAck)) msg)
    rw [sccpLbSapDown_rc]
    cases hs : n1.scu with
    | false =>
      rw [hs] at hd
      exact ⟨hd.free _, rfl⟩
    | true =>
      rw [hs] at hd
      by_cases hrc : io.sapDown (.nUnitdata addr (.bssmapLe .resetAck)) = 0
      · rw [if_pos rfl, if_neg (not_not.mpr hrc)]
        exact ⟨hd.free _, by simp [hrc]⟩
      · rw [if_pos rfl, if_pos hrc]
        exact ⟨hd.free _, by simp [hrc]⟩
  · rw [h, if_neg (by simp [henc]), henc]
    exact ⟨h1, rfl⟩

end Net

/-- The acts by which the request of a session is answered. -/
def Act.Answers (s : Session) : Act → Prop
  | .peerDispatch p st ev => p = s.peer ∧ st = .ready ∧ ev = .msgDownCo
  | .msgDownCo c r _ => c = s.conn ∧ r = some s.req
  | .sapDown (.nData connId _) _ _ => connId = s.connId
  | .locReqAbort r => r = s.req
  | _ => False

namespace Effect

variable {L : Libosmo} {io : Io} {scu : Bool} {cells : CellStore} {s : Session} {a : Act}

theorem sendCo_answers {pdu : BssmapLePdu} (ha : a ∈ (sendCo io scu s pdu).acts) :
    a.Answers s := by
  unfold sendCo at ha
  split at ha
  · simp only [acts_append, acts_enc, acts_msgb, acts_act, List.nil_append, List.mem_append,
      List.mem_singleton] at ha
    rcases ha with (rfl | rfl) | ha
    · exact ⟨rfl, rfl, rfl⟩
    · exact ⟨rfl, rfl⟩
    · unfold down at ha
      split at ha
      · rw [List.mem_singleton.mp ha]
        rfl
      · cases ha
  · cases ha

theorem sendCl_acts {addr : SccpAddr} {pdu : BssmapLePdu} (ha : a ∈ (sendCl io scu addr pdu).acts) :
    ∃ rc, a = .sapDown (.nUnitdata addr (.bssmapLe pdu)) 0 rc := by
  unfold sendCl at ha
  split at ha
  · rw [acts_append, acts_append, acts_enc, acts_msgb, List.nil_append, List.nil_append] at ha
    unfold down at ha
    split at ha
    · exact ⟨_, List.mem_singleton.mp ha⟩
    · cases ha
  · cases ha

theorem gotTa_answers {cellId : CellId} {ta : UInt8}
    (ha : a ∈ (gotTa L io scu cells s cellId ta).acts) : a.Answers s := by
  unfold gotTa failed at ha
  split at ha
  · exact sendCo_answers ha
  · split at ha
    · exact sendCo_answers ha
    · exact sendCo_answers ha

theorem answer_answers {k : Ending} (ha : a ∈ (answer L io scu cells s k).acts) :
    a.Answers s := by
  cases k with
  | locAbort =>
    rw [List.mem_singleton.mp ha]
    rfl
  | ta cellId ta => exact gotTa_answers ha
  | failure cause => exact sendCo_answers ha

end Effect
end OsmoSmlc
