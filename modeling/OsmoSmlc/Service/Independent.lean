import OsmoSmlc.Service.PeerMoves

/-! Events on one session, and the RESET of a peer, as a selection of the sessions that stay:
what they select and what they show does not depend on the other sessions, so that they can
be exchanged. -/
namespace OsmoSmlc
open Osmo

/-- The connection that an act sends on, and the address that it sends to. -/
def ScuReq.connId? : ScuReq → Option ConnId
  | .nConnect _ connId _ | .nData connId _ => some connId
  | .nUnitdata _ _ => none

def ScuReq.called? : ScuReq → Option SccpAddr
  | .nUnitdata called _ => some called
  | _ => none

def Act.connId? : Act → Option ConnId
  | .connResp connId | .disconn connId => some connId
  | .sapDown req _ _ => req.connId?
  | _ => none

def Act.called? : Act → Option SccpAddr
  | .sapDown req _ _ => req.called?
  | _ => none

namespace Service

variable {L : Libosmo} {io : Io} {a a' : Service} {s t : Session} {p : PeerPtr} {n n' : Net}
  {f g : Session → Bool} {addr : SccpAddr} {st : LbPeerState} {i : Input}

/-- Only the sessions that are selected stay. -/
def cut (f : Session → Bool) (n : Net) (a : Service) : Service :=
  gc { a with sessions := a.sessions.filter f, net := n }

theorem cut_cut : (a.cut f n).cut g n' = a.cut (fun s => f s && g s) n' := by
  have hsess : (a.sessions.filter f).filter g = a.sessions.filter fun s => f s && g s := by
    rw [List.filter_filter]
    exact List.filter_congr fun s _ => Bool.and_comm _ _
  have hsub : (a.subscrs.filter fun x => 0 < refs (a.sessions.filter f) x.ptr).filter
      (fun x => 0 < refs ((a.sessions.filter f).filter g) x.ptr)
      = a.subscrs.filter fun x => 0 < refs ((a.sessions.filter f).filter g) x.ptr := by
    rw [List.filter_filter]
    apply List.filter_congr
    intro x _
    by_cases hpos : 0 < refs ((a.sessions.filter f).filter g) x.ptr
    · have hpos' : 0 < refs (a.sessions.filter f) x.ptr := refs_filter_pos hpos
      simp only [hpos, hpos', decide_true, Bool.and_self]
    · simp only [hpos, decide_false, Bool.false_and]
  show ({ a with
    sessions := (a.sessions.filter f).filter g
    subscrs := (a.subscrs.filter fun x => 0 < refs (a.sessions.filter f) x.ptr).filter
      fun x => 0 < refs ((a.sessions.filter f).filter g) x.ptr
    net := n' } : Service) = _
  rw [hsub, hsess]
  rfl

theorem cut_comm : (a.cut f n).cut g n' = (a.cut g n).cut f n' := by
  rw [cut_cut, cut_cut]
  congr 1
  funext s
  exact Bool.and_comm _ _

theorem cut_all (h : a.WF) : a.cut (fun _ => true) n = a.setNet n := by
  unfold cut
  rw [List.filter_true]
  exact (h.setNet n).gc_eq

theorem cut_peer : (a.cut f n).peer L addr = ((a.peer L addr).1, (a.peer L addr).2.cut f n) := by
  have hpeers : (a.cut f n).lbPeers = a.lbPeers := rfl
  unfold peer
  rw [hpeers]
  cases a.lbPeers.find? fun x => L.sccpAddrRiCmp addr x.peerAddr = 0 with
  | some x => rfl
  | none => rfl

/-- What an event on a session asks for: the end of its request, or nothing. -/
def endingOf (L : Libosmo) : Event → Option Ending
  | .scu (.nData _ l2) =>
      match L.msg l2 with
      | .ending k => some k
      | _ => none
  | .locReqTimer _ => some (.failure .systemFailure)
  | _ => none

/-- The event is for a session: a message on its connection, or the end of its timer. -/
def Concerns (ev : Event) (s : Session) : Prop :=
  (∃ l2, ev = .scu (.nData s.connId l2)) ∨ ev = .locReqTimer s.req

/-- The sessions that stay after an event on a session. -/
def staying (L : Libosmo) (ev : Event) (s t : Session) : Bool :=
  (endingOf L ev).isNone || t.conn ≠ s.conn

theorem staying_all {ev : Event} (h : endingOf L ev = none) :
    staying L ev s = fun _ => true := by
  funext t
  simp [staying, h]

theorem staying_ended {ev : Event} {k : Ending} (h : endingOf L ev = some k) :
    staying L ev s = fun t => decide (t.conn ≠ s.conn) := by
  funext t
  simp [staying, h]

/-- What an event on a session shows. -/
def sessionEffect (L : Libosmo) (io : Io) (scu : Bool) (cells : CellStore) (s : Session)
    (ev : Event) : Effect :=
  let ended (k : Ending) : Effect := .answer L io scu cells s k ++ .ended s
  match ev with
  | .scu (.nData _ l2) =>
      .msgb ++ (.act (.peerDispatch s.peer .ready .msgUpCo) ++
        match L.msg l2 with
        | .ignored => .nil
        | .request _ => .request s.conn
        | .ending k => ended k)
  | .locReqTimer _ => ended (.failure .systemFailure)
  | _ => .nil

theorem step_session (h : a.WF) (hs : s ∈ a.sessions) (hi : Concerns i.ev s) :
    ∃ n, a.step L i = .ok (a.cut (staying L i.ev s) n) ∧
      a.net.Does (sessionEffect L i.io a.net.scu a.cellLocations s i.ev) n := by
  obtain ⟨ev, io⟩ := i
  obtain ⟨l2, rfl⟩ | rfl := hi
  · let b := a.setNet a.net.takeMsgb
    let up : Act := .peerDispatch s.peer .ready .msgUpCo
    have hfind : b.sessions.find? (fun t => t.connId = s.connId) = some s :=
      find_connId (h.setNet _) hs
    have hstep : a.step L ⟨.scu (.nData s.connId l2), io⟩
        = .ok (((b.emit up).rx L io s (L.msg l2)).emit (.msgbFree a.net.nextMsgb)) := by
      show Except.ok ((b.data L io s.connId (L.msg l2)).emit (.msgbFree a.net.nextMsgb)) = _
      rw [(data_some hfind).1]
    have hdoes := step_does hstep
    have heff : a.effect L ⟨.scu (.nData s.connId l2), io⟩
        = sessionEffect L io a.net.scu a.cellLocations s (.scu (.nData s.connId l2)) := by
      show Effect.msgb ++ a.dataEffect L io s.connId (L.msg l2) = _
      rw [(data_some (find_connId h hs)).2]
      unfold rxEffect
      cases hm : L.msg l2 with
      | ignored => simp only [sessionEffect, hm]
      | request pdu => simp only [sessionEffect, hm]
      | ending k =>
        simp only [sessionEffect, hm]
        rfl
    rw [heff] at hdoes
    refine ⟨_, hstep.trans ?_, hdoes⟩
    cases hm : L.msg l2 with
    | ignored =>
      rw [staying_all (by simp [endingOf, hm]), cut_all h]
      rfl
    | request pdu =>
      rw [staying_all (by simp [endingOf, hm]), cut_all h]
      rfl
    | ending k =>
      rw [staying_ended (k := k) (by simp [endingOf, hm])]
      rfl
  · have hfind := find_req h hs
    have hstep : a.step L ⟨.locReqTimer s.req, io⟩
        = .ok (a.finish L io s (.failure .systemFailure)) := by
      show Except.ok (a.locReqTimeout L io s.req) = _
      rw [(locReqTimeout_some hfind).1]
    have hdoes := step_does hstep
    have heff : a.effect L ⟨.locReqTimer s.req, io⟩
        = sessionEffect L io a.net.scu a.cellLocations s (.locReqTimer s.req) := by
      show a.locReqTimeoutEffect L io s.req = _
      rw [(locReqTimeout_some hfind).2]
      rfl
    rw [heff] at hdoes
    exact ⟨_, hstep, hdoes⟩

/-- What the RESET of a peer with the sessions `ss` shows. -/
def resetEffect (io : Io) (scu : Bool) (x : LbPeer) (ss : List Session) : Effect :=
  .msgb ++ (.act (.peerDispatch x.ptr x.fi.state .msgUpCl)
    ++ .act (.peerDispatch x.ptr x.fi.state .rxReset)
    ++ .discardAll x.ptr ss ++ .sendCl io scu x.peerAddr .resetAck)

/-- The state that a peer is in after its RESET. -/
def resetState (io : Io) (scu : Bool) (x : LbPeer) : LbPeerState :=
  if Effect.accepted io scu x.peerAddr .resetAck then .ready else .waitRxReset

theorem setPeer_cut : (a.setPeer p st).cut f n = (a.cut f n).setPeer p st := rfl

theorem step_resetFrom {l2 : List UInt8} (hev : i.ev = .scu (.nUnitdata addr l2))
    (hm : L.bssmapLeMsgt l2 = .reset) :
    let x := (a.peer L addr).1
    ∃ n, a.step L i = .ok (((a.peer L addr).2.cut (fun s => s.peer ≠ x.ptr) n).setPeer x.ptr
        (resetState i.io a.net.scu x)) ∧
      a.net.Does (resetEffect i.io a.net.scu x (a.sessions.filter fun s => s.peer = x.ptr)) n := by
  intro x
  obtain ⟨ev, io⟩ := i
  cases hev
  let b := (((a.peer L addr).2.setNet a.net.takeMsgb).emit
    (.peerDispatch x.ptr x.fi.state .msgUpCl)).emit (.peerDispatch x.ptr x.fi.state .rxReset)
  have hstep : a.step L ⟨.scu (.nUnitdata addr l2), io⟩
      = .ok ((b.rxReset io x a.net.nextMsgb).emit (.msgbFree a.net.nextMsgb)) := by
    have hpeer : (a.setNet a.net.takeMsgb).peer L addr
        = (x, (a.peer L addr).2.setNet a.net.takeMsgb) := peer_setNet
    simp only [step, handle, rxPrim, unitdata, hm, hpeer]
    rfl
  have hdoes := step_does hstep
  have heff : a.effect L ⟨.scu (.nUnitdata addr l2), io⟩
      = resetEffect io a.net.scu x (a.sessions.filter fun s => s.peer = x.ptr) := by
    show Effect.msgb ++ a.unitdataEffect L io addr l2 = _
    simp only [unitdataEffect, hm]
    rfl
  rw [heff] at hdoes
  have hscu : (b.discardAll x.ptr).net.scu = a.net.scu := discardAll_scu
  have hst : ((b.discardAll x.ptr).net.sendResetAck io x.peerAddr a.net.nextMsgb).1
      = resetState io a.net.scu x := by
    rw [Net.sendResetAck_does.2, hscu]
    rfl
  refine ⟨_, hstep.trans ?_, hdoes⟩
  rw [← hst]
  rfl

/-- Both orders of two events end in the same service but for the record, which holds their
effects in the order of the events. -/
def Exchanged (L : Libosmo) (i j : Input) (e f : Effect) (a : Service) : Prop :=
  ∃ b c d d', a.step L i = .ok b ∧ b.step L j = .ok d ∧ a.step L j = .ok c ∧ c.step L i = .ok d' ∧
    a.net.Does (e ++ f) d.net ∧ a.net.Does (f ++ e) d'.net ∧ d'.setNet d.net = d

variable {j : Input}

theorem cut_mem (hs : s ∈ a.sessions) (hf : f s = true) : s ∈ (a.cut f n).sessions :=
  List.mem_filter.mpr ⟨hs, hf⟩

theorem staying_other {ev : Event} (h : t.conn ≠ s.conn) : staying L ev s t = true := by
  simp [staying, h]

theorem session_exchanged (h : a.WF) (hs : s ∈ a.sessions) (ht : t ∈ a.sessions)
    (hne : t.conn ≠ s.conn) (hi : Concerns i.ev s) (hj : Concerns j.ev t) :
    a.Exchanged L i j (sessionEffect L i.io a.net.scu a.cellLocations s i.ev)
      (sessionEffect L j.io a.net.scu a.cellLocations t j.ev) := by
  obtain ⟨n, hstep, hd⟩ := step_session (L := L) h hs hi
  obtain ⟨n', hstep', hd'⟩ := step_session (L := L) h ht hj
  have htb : t ∈ (a.cut (staying L i.ev s) n).sessions := cut_mem ht (staying_other hne)
  have hsc : s ∈ (a.cut (staying L j.ev t) n').sessions := cut_mem hs (staying_other hne.symm)
  obtain ⟨m, hthen, hm⟩ := step_session (L := L) (step_wf h hstep) htb hj
  obtain ⟨m', hthen', hm'⟩ := step_session (L := L) (step_wf h hstep') hsc hi
  have hscu : n.scu = a.net.scu := hd.scu
  have hscu' : n'.scu = a.net.scu := hd'.scu
  refine ⟨_, _, _, _, hstep, hthen, hstep', hthen', hd.trans ?_, hd'.trans ?_, ?_⟩
  · rw [← hscu]
    exact hm
  · rw [← hscu']
    exact hm'
  · have hcomm : (a.cut (staying L j.ev t) n').cut (staying L i.ev s) m
        = (a.cut (staying L i.ev s) n').cut (staying L j.ev t) m := cut_comm
    exact hcomm

/-- The sessions of other peers do not matter to a RESET. -/
theorem staying_peer (h : a.WF) (hs : s ∈ a.sessions) (hp : s.peer ≠ p) (ev : Event) :
    (a.sessions.filter (staying L ev s)).filter (fun t => t.peer = p)
      = a.sessions.filter fun t => t.peer = p := by
  rw [List.filter_filter]
  apply List.filter_congr
  intro t ht
  by_cases htp : t.peer = p
  · have hne : t.conn ≠ s.conn := by
      intro heq
      rw [List.inj_on_of_nodup_map h.conns ht hs heq] at htp
      exact hp htp
    rw [staying_other hne, Bool.and_true]
  · simp [htp]

theorem reset_exchanged {l2 : List UInt8} (h : a.WF) (hs : s ∈ a.sessions)
    (hi : Concerns i.ev s) (hev : j.ev = .scu (.nUnitdata addr l2))
    (hm : L.bssmapLeMsgt l2 = .reset) (hp : s.peer ≠ (a.peer L addr).1.ptr) :
    a.Exchanged L i j (sessionEffect L i.io a.net.scu a.cellLocations s i.ev)
      (resetEffect j.io a.net.scu (a.peer L addr).1
        (a.sessions.filter fun s => s.peer = (a.peer L addr).1.ptr)) := by
  let x := (a.peer L addr).1
  obtain ⟨n, hstep, hd⟩ := step_session (L := L) h hs hi
  obtain ⟨n', hstep', hd'⟩ := step_resetFrom (a := a) hev hm
  have hsc : s ∈ (((a.peer L addr).2.cut (fun s => s.peer ≠ x.ptr) n').setPeer x.ptr
      (resetState j.io a.net.scu x)).sessions := by
    refine List.mem_filter.mpr ⟨?_, decide_eq_true hp⟩
    rw [peer_sessions]
    exact hs
  obtain ⟨m, hthen, hdm⟩ := step_resetFrom (a := a.cut (staying L i.ev s) n) hev hm
  obtain ⟨m', hthen', hdm'⟩ := step_session (L := L) (step_wf h hstep') hsc hi
  have hscu : n.scu = a.net.scu := hd.scu
  have hscu' : n'.scu = a.net.scu := hd'.scu
  have hcells : (a.peer L addr).2.cellLocations = a.cellLocations := by rw [peer_frame]
  rw [cut_peer] at hthen hdm
  refine ⟨_, _, _, _, hstep, hthen, hstep', hthen', hd.trans ?_, hd'.trans ?_, ?_⟩
  · have hss : (a.cut (staying L i.ev s) n).sessions.filter (fun t => t.peer = x.ptr)
        = a.sessions.filter fun t => t.peer = x.ptr := staying_peer h hs hp i.ev
    rw [hss] at hdm
    rw [← hscu]
    exact hdm
  · rw [← hscu', ← hcells]
    exact hdm'
  · have hcomm : (((a.peer L addr).2.cut (fun s => s.peer ≠ x.ptr) n').cut (staying L i.ev s) m)
        = ((a.peer L addr).2.cut (staying L i.ev s) n').cut (fun s => s.peer ≠ x.ptr) m :=
      cut_comm
    have hn : (a.cut (staying L i.ev s) n).net.scu = a.net.scu := hscu
    rw [setPeer_cut]
    show (((a.peer L addr).2.cut _ n').cut (staying L i.ev s) m).setPeer x.ptr _ = _
    rw [hcomm, hn]
    rfl

end Service

theorem Net.Does.exchange {n n' n'' : Net} {e f : Effect} (h : n.Does (e ++ f) n')
    (h' : n.Does (f ++ e) n'') : { n'' with log := n'.log } = n' := by
  have hctrs : n''.ctrs = n'.ctrs := by
    rw [h.ctrs, h'.ctrs, Effect.ctrs_append, Effect.ctrs_append, ← Ctrs.add_assoc,
      ← Ctrs.add_assoc]
    exact Ctrs.add_right_comm
  have hmsgb : n''.nextMsgb = n'.nextMsgb := by
    rw [h.nextMsgb, h'.nextMsgb, Effect.msgbs_append, Effect.msgbs_append, Nat.add_comm f.msgbs]
  have hscu : n''.scu = n'.scu := h'.scu.trans h.scu.symm
  obtain ⟨scu, ctrs, nextMsgb, log⟩ := n'
  cases hctrs
  cases hmsgb
  cases hscu
  rfl

end OsmoSmlc
