import OsmoSmlc.Service.Record

/-! What one event can do to the sessions, together with what it shows of their requests:
a case for every way in which a session begins or ends. -/
namespace OsmoSmlc
open Osmo

/-- What is shown of a location request. -/
inductive Told where
  | accepted (conn : ConnPtr)
  | aborted
  | discarded
  | response (conn : ConnPtr) (resp : PerformLocResp)
  | cleanup
  deriving DecidableEq

/-- The request that an act is about, and what it tells. -/
def Act.told : Act → Option (ReqPtr × Told)
  | .locReqAccepted r c _ => some (r, .accepted c)
  | .locReqAbort r => some (r, .aborted)
  | .resetDiscard _ (some r) => some (r, .discarded)
  | .msgDownCo c (some r) (.bssmapLe (.performLocResp resp)) => some (r, .response c resp)
  | .locReqCleanup r => some (r, .cleanup)
  | _ => none

theorem Act.told_accepted {act : Act} {r : ReqPtr} {c : ConnPtr}
    (h : act.told = some (r, .accepted c)) : ∃ pdu, act = .locReqAccepted r c pdu := by
  unfold Act.told at h
  split at h
  · rename_i pdu
    cases h
    exact ⟨pdu, rfl⟩
  all_goals cases h

namespace Effect

def told (e : Effect) : List (ReqPtr × Told) := e.acts.filterMap Act.told

section Told

variable {L : Libosmo} {io : Io} {scu : Bool} {e f : Effect} {s : Session}

@[simp] theorem told_nil : nil.told = [] := rfl
@[simp] theorem told_msgb : msgb.told = [] := rfl
@[simp] theorem told_enc {pdu : BssapLePdu} : (enc pdu).told = [] := rfl
@[simp] theorem told_request {c : ConnPtr} : (request c).told = [] := rfl
@[simp] theorem told_append : (e ++ f).told = e.told ++ f.told := List.filterMap_append

@[simp] theorem told_act {a : Act} : (act a).told = a.told.toList := by
  simp only [told, acts_act, List.filterMap_cons, List.filterMap_nil]
  cases a.told <;> rfl

@[simp] theorem told_down {req : ScuReq} : (down io scu req).told = [] := by
  unfold down
  split <;> rfl

@[simp] theorem told_sendCl {addr : SccpAddr} {pdu : BssmapLePdu} :
    (sendCl io scu addr pdu).told = [] := by
  unfold sendCl
  split <;> simp

theorem told_sendCo {pdu : BssmapLePdu} (henc : io.bssapLeEnc (.bssmapLe pdu) = true) :
    (sendCo io scu s pdu).told = (Act.msgDownCo s.conn (some s.req) (.bssmapLe pdu)).told.toList := by
  rw [sendCo, if_pos henc]
  simp [Act.told]

theorem told_taRequest : (sendCo io scu s (.connOrientedInfo .taRequest)).told = [] := by
  cases henc : io.bssapLeEnc (.bssmapLe (.connOrientedInfo .taRequest)) with
  | true => rw [told_sendCo henc]; rfl
  | false => simp [sendCo, henc]

theorem told_ended : (ended s).told = [(s.req, .cleanup)] := rfl

theorem told_discardAll {p : PeerPtr} (ss : List Session) :
    (discardAll p ss).told = ss.flatMap fun s => [(s.req, .discarded), (s.req, .cleanup)] := by
  induction ss with
  | nil => rfl
  | cons s ss ih =>
    rw [discardAll, told_append, ih]
    rfl

end Told
end Effect

/-- What is told of one request. -/
def ofReq (r : ReqPtr) (told : List (ReqPtr × Told)) : List Told :=
  told.filterMap fun t => if t.1 = r then some t.2 else none

def toldOf (r : ReqPtr) (acts : List Act) : List Told := ofReq r (acts.filterMap Act.told)

def Told.response? : Told → Option PerformLocResp
  | .response _ resp => some resp
  | _ => none

/-- The Perform Location Responses that were handed down for a request. -/
def responses (r : ReqPtr) (acts : List Act) : List PerformLocResp :=
  (toldOf r acts).filterMap Told.response?

section OfReq

variable {r r' : ReqPtr} {t : Told} {l l' : List (ReqPtr × Told)}

@[simp] theorem ofReq_nil : ofReq r [] = [] := rfl

@[simp] theorem ofReq_append : ofReq r (l ++ l') = ofReq r l ++ ofReq r l' := List.filterMap_append

@[simp] theorem ofReq_cons_self : ofReq r ((r, t) :: l) = t :: ofReq r l := by
  simp [ofReq]

theorem ofReq_cons_ne (h : r' ≠ r) : ofReq r ((r', t) :: l) = ofReq r l := by
  simp [ofReq, h]

/-- Of the requests of discarded sessions, each is told about on its own. -/
theorem ofReq_discarded {ss : List Session} (hnd : (ss.map Session.req).Nodup) :
    ((∃ s ∈ ss, s.req = r) → ofReq r (ss.flatMap fun s =>
      [(s.req, .discarded), (s.req, .cleanup)]) = [.discarded, .cleanup]) ∧
    ((∀ s ∈ ss, s.req ≠ r) → ofReq r (ss.flatMap fun s =>
      [(s.req, .discarded), (s.req, .cleanup)]) = []) := by
  induction ss with
  | nil => simp
  | cons s ss ih =>
    rw [List.map_cons, List.nodup_cons] at hnd
    obtain ⟨ih1, ih2⟩ := ih hnd.2
    rw [List.flatMap_cons, ofReq_append]
    constructor
    · intro hex
      by_cases hs : s.req = r
      · have hrest : ∀ t ∈ ss, t.req ≠ r := by
          intro t ht heq
          exact hnd.1 (List.mem_map.mpr ⟨t, ht, heq.trans hs.symm⟩)
        rw [ih2 hrest, ← hs]
        simp
      · obtain ⟨t, ht, heq⟩ := hex
        have ht' : t ∈ ss := by
          rcases List.mem_cons.mp ht with rfl | ht
          · exact absurd heq hs
          · exact ht
        rw [ih1 ⟨t, ht', heq⟩, ofReq_cons_ne hs, ofReq_cons_ne hs]
        rfl
    · intro hall
      have hs : s.req ≠ r := hall s List.mem_cons_self
      rw [ih2 fun t ht => hall t (List.mem_cons_of_mem s ht), ofReq_cons_ne hs, ofReq_cons_ne hs]
      rfl

theorem mem_toldOf {acts : List Act} :
    t ∈ toldOf r acts ↔ ∃ act ∈ acts, act.told = some (r, t) := by
  simp only [toldOf, ofReq, List.mem_filterMap]
  constructor
  · rintro ⟨⟨r', t'⟩, ⟨act, hact, htold⟩, hif⟩
    split at hif
    · rename_i heq
      cases hif
      exact ⟨act, hact, htold.trans (by rw [← heq])⟩
    · cases hif
  · rintro ⟨act, hact, htold⟩
    exact ⟨(r, t), ⟨act, hact, htold⟩, if_pos rfl⟩

end OfReq

/-- How the sessions change from `a` to `a'`, and what is told meanwhile. -/
inductive Service.Turn (L : Libosmo) (io : Io) (ev : Event) (a : Service) :
    List (ReqPtr × Told) → Service → Prop
  | quiet {a' : Service} (hs : a'.sessions = a.sessions) (hr : a'.next.req = a.next.req) :
      Turn L io ev a [] a'
  | ended {a' : Service} (s : Session) (k : Ending) (hmem : s ∈ a.sessions)
      (hs : a'.sessions = KeyedList.remove Session.conn a.sessions s.conn)
      (hr : a'.next.req = a.next.req) :
      Turn L io ev a
        ((Effect.answer L io a.net.scu a.cellLocations s k).told ++ [(s.req, .cleanup)]) a'
  | discarded {a' : Service} (p : PeerPtr)
      (hs : a'.sessions = a.sessions.filter fun s => s.peer ≠ p)
      (hr : a'.next.req = a.next.req) :
      Turn L io ev a ((a.sessions.filter fun s => s.peer = p).flatMap
        fun s => [(s.req, .discarded), (s.req, .cleanup)]) a'
  | opened {a' : Service} (s : Session) (addr : SccpAddr) (l2 : List UInt8)
      (hev : ev = .scu (.nConnect s.connId addr l2)) (hreq : s.req = a.next.req)
      (hs : a'.sessions = s :: a.sessions) (hr : a'.next.req = a.next.req + 1) :
      Turn L io ev a [(s.req, .accepted s.conn)] a'
  | answered {a' : Service} (s : Session) (ta : UInt8) (addr : SccpAddr) (l2 : List UInt8)
      (hev : ev = .scu (.nConnect s.connId addr l2)) (hreq : s.req = a.next.req)
      (hs : a'.sessions = a.sessions) (hr : a'.next.req = a.next.req + 1) :
      Turn L io ev a ((Effect.gotTa L io a.net.scu a.cellLocations s s.pdu.cellId ta).told
        ++ [(s.req, .cleanup), (s.req, .accepted s.conn)]) a'

namespace Service

variable {L : Libosmo} {io : Io} {ev : Event} {a a' b b' : Service} {s : Session}
  {connId : ConnId} {m : Msg} {addr : SccpAddr} {p : PeerPtr} {x : LbPeer}
  {told : List (ReqPtr × Told)}

/-- Only some parts of the states matter. -/
theorem Turn.congr (h : b.Turn L io ev told b') (hs : a.sessions = b.sessions)
    (hr : a.next.req = b.next.req) (hc : a.cellLocations = b.cellLocations)
    (hscu : a.net.scu = b.net.scu) (hs' : a'.sessions = b'.sessions)
    (hr' : a'.next.req = b'.next.req) : a.Turn L io ev told a' := by
  cases h with
  | quiet hss hrr => exact .quiet (hs'.trans (hss.trans hs.symm)) (hr'.trans (hrr.trans hr.symm))
  | ended s k hmem hss hrr =>
    rw [← hscu, ← hc]
    rw [← hs] at hmem hss
    exact .ended s k hmem (hs'.trans hss) (hr'.trans (hrr.trans hr.symm))
  | discarded p hss hrr =>
    rw [← hs]
    rw [← hs] at hss
    exact .discarded p (hs'.trans hss) (hr'.trans (hrr.trans hr.symm))
  | opened s addr l2 hev hreq hss hrr =>
    rw [← hs] at hss
    rw [← hr] at hreq hrr
    exact .opened s addr l2 hev hreq (hs'.trans hss) (hr'.trans hrr)
  | answered s ta addr l2 hev hreq hss hrr =>
    rw [← hscu, ← hc]
    rw [← hs] at hss
    rw [← hr] at hreq hrr
    exact .answered s ta addr l2 hev hreq (hs'.trans hss) (hr'.trans hrr)

theorem Turn.setNet {n : Net} (h : (a.setNet n).Turn L io ev told b') (hscu : n.scu = a.net.scu) :
    a.Turn L io ev told b' := h.congr rfl rfl rfl hscu.symm rfl rfl

theorem Turn.after {n : Net} (h : a.Turn L io ev told b') : a.Turn L io ev told (b'.setNet n) :=
  h.congr rfl rfl rfl rfl rfl rfl

/-- A session that is listed was listed before, or an N-CONNECT on its id has opened it. -/
theorem Turn.mem (h : a.Turn L io ev told a') (hs : s ∈ a'.sessions) :
    s ∈ a.sessions ∨ ∃ addr l2, ev = .scu (.nConnect s.connId addr l2) := by
  cases h with
  | quiet hss hrr => exact .inl (hss ▸ hs)
  | ended t k hmem hss hrr =>
    rw [hss] at hs
    exact .inl (KeyedList.mem_remove.mp hs).1
  | discarded p hss hrr =>
    rw [hss] at hs
    exact .inl (List.mem_filter.mp hs).1
  | opened t addr l2 hev hreq hss hrr =>
    rw [hss] at hs
    rcases List.mem_cons.mp hs with rfl | hs
    · exact .inr ⟨addr, l2, hev⟩
    · exact .inl hs
  | answered t ta addr l2 hev hreq hss hrr => exact .inl (hss ▸ hs)

theorem finish_turn {k : Ending} (hmem : s ∈ a.sessions) :
    a.Turn L io ev (a.finishEffect L io s k).told (a.finish L io s k) := by
  rw [finishEffect, Effect.told_append, Effect.told_ended]
  exact .ended s k hmem rfl rfl

theorem data_turn :
    a.Turn L io ev (a.dataEffect L io connId m).told (a.data L io connId m) := by
  cases hfind : a.sessions.find? fun s => s.connId = connId with
  | none =>
    rw [(data_none hfind).1, (data_none hfind).2]
    exact .quiet rfl rfl
  | some s =>
    rw [(data_some hfind).1, (data_some hfind).2, Effect.told_append]
    cases m with
    | ignored => exact .quiet rfl rfl
    | request pdu => exact .quiet rfl rfl
    | ending k =>
      let b := a.emit (.peerDispatch s.peer .ready .msgUpCo)
      have hf : b.Turn L io ev _ (b.finish L io s k) :=
        finish_turn (List.mem_of_find?_eq_some hfind)
      exact hf.setNet rfl

theorem openSession_turn {pdu : PerformLocReq} {l2 : List UInt8}
    (hev : ev = .scu (.nConnect connId addr l2)) (hcb : ∀ s ∈ a.sessions, s.conn < a.next.conn) :
    a.Turn L io ev (a.openSessionEffect L io p connId pdu).told
      (a.openSession L io p connId pdu) := by
  let s := a.newSession L p connId pdu
  by_cases hta : ∃ ta, pdu.apdu = some (.taLayer3 ta)
  · obtain ⟨ta, hta⟩ := hta
    rw [openSession_answered hta, openSessionEffect_answered hta]
    simp only [Effect.told_append, Effect.told_request, Effect.told_act, List.nil_append,
      List.append_assoc]
    refine .answered s ta addr l2 hev rfl ?_ rfl
    show KeyedList.remove Session.conn (s :: a.sessions) s.conn = a.sessions
    exact KeyedList.remove_cons_self s fun t ht => Nat.ne_of_lt (hcb t ht)
  · have hta' : ∀ ta, pdu.apdu ≠ some (.taLayer3 ta) := fun ta h => hta ⟨ta, h⟩
    rw [openSession_pending hta', openSessionEffect_pending hta']
    simp only [Effect.told_append, Effect.told_request, Effect.told_taRequest, Effect.told_act,
      List.nil_append]
    exact .opened s addr l2 hev rfl rfl rfl

theorem connectTo_turn {l2 : List UInt8} (hev : ev = .scu (.nConnect connId addr l2))
    (hcb : ∀ s ∈ a.sessions, s.conn < a.next.conn)
    (ho : a.connectTo L io x connId m = .ok a') :
    a.Turn L io ev (a.connectToEffect L io x connId m).told a' := by
  unfold connectTo at ho
  unfold connectToEffect
  cases hst : x.fi.state with
  | waitRxReset =>
    rw [hst] at ho
    cases ho
    dsimp only
    rw [Effect.told_sendCl]
    exact .quiet rfl rfl
  | waitRxResetAck =>
    rw [hst] at ho
    cases ho
    dsimp only
    rw [Effect.told_append, Effect.told_sendCl]
    exact .quiet rfl rfl
  | discarding =>
    rw [hst] at ho
    cases ho
    exact .quiet rfl rfl
  | ready =>
    rw [hst] at ho
    cases m with
    | ignored =>
      cases ho
      exact .quiet rfl rfl
    | request pdu =>
      cases ho
      exact openSession_turn hev hcb
    | ending k => cases ho

/-- Finding or creating the peer of an event changes none of the parts that matter. -/
theorem peer_parts (L : Libosmo) (a : Service) (addr : SccpAddr) :
    (a.peer L addr).2.sessions = a.sessions ∧
    (a.peer L addr).2.next.req = a.next.req ∧ (a.peer L addr).2.next.conn = a.next.conn ∧
    (a.peer L addr).2.cellLocations = a.cellLocations ∧ (a.peer L addr).2.net = a.net := by
  unfold peer
  split
  · exact ⟨rfl, rfl, rfl, rfl, rfl⟩
  · exact ⟨rfl, rfl, rfl, rfl, rfl⟩

theorem connect_turn {l2 : List UInt8} (hev : ev = .scu (.nConnect connId addr l2))
    (hcb : ∀ s ∈ a.sessions, s.conn < a.next.conn)
    (ho : a.connect L io connId addr m = .ok a') :
    a.Turn L io ev (a.connectEffect L io connId addr m).told a' := by
  unfold connect at ho
  unfold connectEffect
  split at ho
  · rename_i hany
    cases ho
    rw [if_pos hany]
    exact .quiet rfl rfl
  · rename_i hany
    obtain ⟨hs, hr, hc, hcells, hnet⟩ := peer_parts L a addr
    let x := (a.peer L addr).1
    let b := (a.peer L addr).2.emit (.peerDispatch x.ptr x.fi.state .msgUpCoInitial)
    have hcb' : ∀ s ∈ b.sessions, s.conn < b.next.conn := by
      intro s hmem
      have hlt := hcb s (hs ▸ hmem)
      exact Nat.lt_of_lt_of_eq hlt hc.symm
    have ht : b.Turn L io ev (b.connectToEffect L io x connId m).told a' :=
      connectTo_turn hev hcb' ho
    have he : b.connectToEffect L io x connId m = a.connectToEffect L io x connId m :=
      connectToEffect_peer
    have hbscu : b.net.scu = a.net.scu := by
      show (a.peer L addr).2.net.scu = a.net.scu
      rw [hnet]
    rw [he] at ht
    rw [if_neg hany]
    exact ht.congr hs.symm hr.symm hcells.symm hbscu.symm rfl rfl

theorem unitdata_turn {l2 : List UInt8} {msg : MsgbPtr} :
    a.Turn L io ev (a.unitdataEffect L io addr l2).told (a.unitdata L io addr l2 msg) := by
  obtain ⟨hs, hr, -, hcells, hnet⟩ := peer_parts L a addr
  unfold unitdata unitdataEffect
  cases L.bssmapLeMsgt l2 with
  | reset =>
    simp only [Effect.told_append, Effect.told_act, Effect.told_discardAll, Effect.told_sendCl,
      List.append_nil]
    refine .discarded (a.peer L addr).1.ptr ?_ hr
    rw [← hs]
    rfl
  | resetAck =>
    dsimp only
    split
    · exact .quiet hs hr
    · exact .quiet hs hr
  | other msgt => exact .quiet hs hr

/-- Every event does one of these things. -/
theorem step_turn {i : Input} (h : a.WF) (ho : a.step L i = .ok a') :
    a.Turn L i.io i.ev (a.effect L i).told a' := by
  obtain ⟨ev, io⟩ := i
  let b := a.setNet a.net.takeMsgb
  cases ev with
  | scu prim =>
    simp only [step, handle] at ho
    split at ho
    · rename_i c hc
      cases ho
      apply Turn.after
      have hscu : a.net.takeMsgb.scu = a.net.scu := rfl
      have he : b.rxPrimEffect L io prim = a.rxPrimEffect L io prim := rxPrimEffect_setNet hscu
      show a.Turn L io _ (Effect.msgb ++ a.rxPrimEffect L io prim).told c
      rw [Effect.told_append, Effect.told_msgb, List.nil_append, ← he]
      refine Turn.setNet (n := a.net.takeMsgb) ?_ rfl
      cases prim with
      | nConnect connId addr l2 =>
        simp only [rxPrim, rxPrimEffect] at hc ⊢
        split at hc
        · rename_i hl
          cases hc
          rw [if_pos hl]
          exact .quiet rfl rfl
        · rename_i hl
          have hn : (b.net.emit (.connResp connId)).scu = b.net.scu := rfl
          rw [if_neg hl, ← connectEffect_setNet hn, Effect.told_append]
          have ht : (b.emit (.connResp connId)).Turn L io (.scu (.nConnect connId addr l2)) _ c :=
            connect_turn rfl h.connBound hc
          exact ht.setNet hn
      | nData connId l2 =>
        cases hc
        exact data_turn
      | nDisconnect connId l2 =>
        cases hc
        simp only [rxPrimEffect, Effect.told_append]
        split
        · rw [Effect.told_act]
          exact (List.append_nil _).symm ▸ data_turn.after
        · exact .quiet rfl rfl
      | nUnitdata addr l2 =>
        cases hc
        exact unitdata_turn
      | unsupported l2 =>
        cases hc
        exact .quiet rfl rfl
    · cases ho
  | locReqTimer r =>
    cases ho
    show a.Turn L io _ (a.locReqTimeoutEffect L io r).told (a.locReqTimeout L io r)
    cases hfind : a.sessions.find? fun s => s.req = r with
    | none =>
      rw [(locReqTimeout_none hfind).1, (locReqTimeout_none hfind).2]
      exact .quiet rfl rfl
    | some s =>
      rw [(locReqTimeout_some hfind).1, (locReqTimeout_some hfind).2]
      exact finish_turn (List.mem_of_find?_eq_some hfind)
  | lbPeerTimer p =>
    cases ho
    show a.Turn L io _ [] (a.lbPeerTimeout p)
    unfold lbPeerTimeout
    split
    · split
      · exact .quiet rfl rfl
      · exact .quiet rfl rfl
    · exact .quiet rfl rfl
  | vty cmd =>
    cases ho
    exact .quiet rfl rfl

theorem toldOf_step {i : Input} (ho : a.step L i = .ok a') (r : ReqPtr) :
    toldOf r a'.net.log = toldOf r a.net.log ++ ofReq r (a.effect L i).told := by
  obtain ⟨acts, hlog, hseen⟩ := (step_does ho).log
  have htold : acts.filterMap Act.told = (a.effect L i).told := by
    rw [Effect.told, ← hseen, filterMap_seen]
    intro b
    cases b <;> rfl
  rw [toldOf, hlog, List.filterMap_append, ofReq_append, htold]
  rfl

end Service
end OsmoSmlc
