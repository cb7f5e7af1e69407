import OsmoSmlc.Model.Sample
import OsmoSmlc.Service.Independent

/-! Independent connections do not interfere: events on different connections, or on a
connection and for another peer, can be exchanged. -/
namespace OsmoSmlc
open Osmo

/-- What is sent on a connection, or to a peer, in the order of the record. -/
def sentOn (connId : ConnId) (acts : List Act) : List Act :=
  (acts.filterMap Act.seen).filter fun act => act.connId? = some connId

def sentTo (addr : SccpAddr) (acts : List Act) : List Act :=
  (acts.filterMap Act.seen).filter fun act => act.called? = some addr

/-- The state of the process, without the record of what it did. -/
def World.forget (w : World) : World := w.setNet { w.net with log := [] }

/-- The event is an N-DATA on the connection, or the T-12 expiry of its request. -/
def LbConn.Addressed (x : LbConn) (ev : Event) : Prop :=
  (∃ l2, ev = .scu (.nData x.sccpConnId l2)) ∨ ∃ r, x.smlcLocReq = some r ∧ ev = .locReqTimer r

/-- Only the connection and its request have changed, and only on it something was sent. -/
structure World.ChangesOnly (w : World) (x : LbConn) (w' : World) : Prop where
  peers : w'.lbPeers = w.lbPeers
  conns : KeyedList.remove LbConn.ptr w'.lbConns x.ptr = KeyedList.remove LbConn.ptr w.lbConns x.ptr
  reqs : ∀ r, x.smlcLocReq ≠ some r → w'.locReq? r = w.locReq? r
  sent : ∀ act ∈ newActs w w', act.called? = none ∧
    (act.connId? = none ∨ act.connId? = some x.sccpConnId)

/-- Both orders of two events end in the same state and send the same messages. -/
def World.Exchanges (L : Libosmo) (w : World) (i j : Input) : Prop :=
  ∃ u uv v vu, step L w i = .ok u ∧ step L u j = .ok uv ∧ step L w j = .ok v ∧
    step L v i = .ok vu ∧ uv.forget = vu.forget ∧
    (∀ connId, sentOn connId (newActs w uv) = sentOn connId (newActs w vu)) ∧
    ∀ addr, sentTo addr (newActs w uv) = sentTo addr (newActs w vu)

section Sends

variable {L : Libosmo} {io : Io} {scu : Bool} {cells : CellStore} {s : Session} {act : Act}
  {x : LbPeer} {ss : List Session} {ev : Event}

theorem Act.Answers.sent (h : act.Answers s) : act.called? = none ∧
    (act.connId? = none ∨ act.connId? = some s.connId) := by
  cases act with
  | sapDown req msg rc =>
    cases req with
    | nData connId pdu =>
      have hid : connId = s.connId := h
      exact ⟨rfl, .inr (congrArg some hid)⟩
    | nConnect called connId pdu => exact absurd h id
    | nUnitdata called pdu => exact absurd h id
  | disconn connId => exact absurd h id
  | connResp connId => exact absurd h id
  | _ => exact ⟨rfl, .inl rfl⟩

theorem Effect.ended_sent (ha : act ∈ (Effect.ended s).acts) : act.called? = none ∧
    (act.connId? = none ∨ act.connId? = some s.connId) := by
  simp only [Effect.ended, Effect.acts_append, Effect.acts_act, List.append_assoc,
    List.mem_append, List.mem_singleton] at ha
  rcases ha with rfl | rfl | rfl
  · exact ⟨rfl, .inl rfl⟩
  · exact ⟨rfl, .inr rfl⟩
  · exact ⟨rfl, .inl rfl⟩

/-- An event on a session sends nothing but on its connection. -/
theorem Service.sessionEffect_sent
    (ha : act ∈ (Service.sessionEffect L io scu cells s ev).acts) :
    act.called? = none ∧ (act.connId? = none ∨ act.connId? = some s.connId) := by
  have hended : ∀ k, act ∈ (Effect.answer L io scu cells s k ++ .ended s).acts →
      act.called? = none ∧ (act.connId? = none ∨ act.connId? = some s.connId) := by
    intro k hk
    rcases List.mem_append.mp hk with hk | hk
    · exact (Effect.answer_answers hk).sent
    · exact Effect.ended_sent hk
  unfold Service.sessionEffect at ha
  split at ha
  · rename_i l2
    simp only [Effect.acts_append, Effect.acts_msgb, Effect.acts_act, List.nil_append,
      List.singleton_append, List.mem_cons] at ha
    rcases ha with rfl | ha
    · exact ⟨rfl, .inl rfl⟩
    · split at ha
      · cases ha
      · rw [Effect.acts_request, List.mem_singleton] at ha
        subst ha
        exact ⟨rfl, .inl rfl⟩
      · exact hended _ ha
  · exact hended _ ha
  · cases ha

/-- A RESET sends nothing on any connection. -/
theorem Service.resetEffect_sent (ha : act ∈ (Service.resetEffect io scu x ss).acts) :
    act.connId? = none := by
  have hdisc : ∀ ss : List Session, act ∈ (Effect.discardAll x.ptr ss).acts →
      act.connId? = none := by
    intro ss
    induction ss with
    | nil => nofun
    | cons s ss ih =>
      intro hm
      rcases List.mem_append.mp hm with hm | hm
      · simp only [Effect.discarded, Effect.acts_append, Effect.acts_act, List.append_assoc,
          List.mem_append, List.mem_singleton] at hm
        rcases hm with rfl | rfl | rfl <;> rfl
      · exact ih hm
  simp only [Service.resetEffect, Effect.acts_append, Effect.acts_msgb, Effect.acts_act,
    List.nil_append, List.mem_append, List.mem_singleton] at ha
  rcases ha with ((rfl | rfl) | ha) | ha
  · rfl
  · rfl
  · exact hdisc ss ha
  · obtain ⟨rc, rfl⟩ := Effect.sendCl_acts ha
    rfl

end Sends

section Order

variable {f : Act → Bool} {acts acts' : List Act}

/-- What is picked from two lists does not depend on their order where one yields nothing. -/
theorem filter_append_comm (h : (∀ act ∈ acts, f act = false) ∨ ∀ act ∈ acts', f act = false) :
    (acts ++ acts').filter f = (acts' ++ acts).filter f := by
  have hnil : ∀ {l : List Act}, (∀ act ∈ l, f act = false) → l.filter f = [] := by
    intro l hl
    exact List.filter_eq_nil_iff.mpr fun act hact => by simp [hl act hact]
  rw [List.filter_append, List.filter_append]
  rcases h with h | h
  · rw [hnil h, List.nil_append, List.append_nil]
  · rw [hnil h, List.nil_append, List.append_nil]

end Order

namespace Service

variable {L : Libosmo} {a : Service} {i j : Input} {e f : Effect} {s : Session}

/-- Exchanged events of the service are exchanged events of the process. -/
theorem Exchanged.world (h : a.WF) (hx : a.Exchanged L i j e f)
    (hconn : ∀ connId, (∀ act ∈ e.acts, act.connId? ≠ some connId) ∨
      ∀ act ∈ f.acts, act.connId? ≠ some connId)
    (haddr : ∀ addr, (∀ act ∈ e.acts, act.called? ≠ some addr) ∨
      ∀ act ∈ f.acts, act.called? ≠ some addr) : a.world.Exchanges L i j := by
  obtain ⟨b, c, d, d', hb, hd, hc, hd', hef, hfe, heq⟩ := hx
  have hstep : ∀ {a b : Service} {i : Input}, a.WF → a.step L i = .ok b →
      OsmoSmlc.step L a.world i = .ok b.world := by
    intro a b i ha hi
    rw [step_world L ha, hi]
    rfl
  have hnew : ∀ {d : Service} {g : Effect}, a.net.Does g d.net →
      (newActs a.world d.world).filterMap Act.seen = g.acts := by
    intro d g hg
    obtain ⟨acts, hlog, hseen⟩ := hg.log
    have hnew : newActs a.world d.world = acts := newActs_eq hlog
    rw [hnew, hseen]
  refine ⟨b.world, d.world, c.world, d'.world, hstep h hb, hstep (step_wf h hb) hd, hstep h hc,
    hstep (step_wf h hc) hd', ?_, ?_, ?_⟩
  · have hnet : { d'.net with log := d.net.log } = d.net := hef.exchange hfe
    rw [← heq]
    show d'.world.setNet { d.net with log := [] } = d'.world.setNet { d'.net with log := [] }
    rw [← hnet]
  · intro connId
    unfold sentOn
    rw [hnew hef, hnew hfe]
    exact filter_append_comm ((hconn connId).imp (fun h act ha => decide_eq_false (h act ha))
      fun h act ha => decide_eq_false (h act ha))
  · intro addr
    unfold sentTo
    rw [hnew hef, hnew hfe]
    exact filter_append_comm ((haddr addr).imp (fun h act ha => decide_eq_false (h act ha))
      fun h act ha => decide_eq_false (h act ha))

theorem concerns_of_addressed {ev : Event} (h : s.lbConn.Addressed ev) : Concerns ev s := by
  obtain ⟨l2, rfl⟩ | ⟨r, hr, rfl⟩ := h
  · exact .inl ⟨l2, rfl⟩
  · cases hr
    exact .inr rfl

theorem changesOnly (h : a.WF) (hs : s ∈ a.sessions) (hi : Concerns i.ev s) {w' : World}
    (hw' : OsmoSmlc.step L a.world i = .ok w') : a.world.ChangesOnly s.lbConn w' := by
  obtain ⟨n, hstep, hd⟩ := step_session (L := L) h hs hi
  rw [step_world L h, hstep] at hw'
  cases hw'
  have hsess : ∀ t ∈ a.sessions, t ≠ s → staying L i.ev s t = true := by
    intro t ht hne
    exact staying_other fun heq => hne (List.inj_on_of_nodup_map h.conns ht hs heq)
  refine ⟨rfl, ?_, ?_, ?_⟩
  · show KeyedList.remove LbConn.ptr ((a.sessions.filter (staying L i.ev s)).map Session.lbConn)
      s.conn = KeyedList.remove LbConn.ptr (a.sessions.map Session.lbConn) s.conn
    rw [KeyedList.remove_map, KeyedList.remove_map]
    congr 1
    unfold KeyedList.remove
    rw [List.filter_filter]
    apply List.filter_congr
    intro t ht
    by_cases hts : t.conn = s.conn
    · simp [Session.lbConn, hts]
    · rw [staying_other hts, Bool.and_true]
  · intro r hr
    have hne : s.req ≠ r := fun heq => hr (congrArg some heq)
    show KeyedList.lookup SmlcLocReq.ptr ((a.sessions.filter (staying L i.ev s)).map
      Session.locReq) r = KeyedList.lookup SmlcLocReq.ptr (a.sessions.map Session.locReq) r
    rw [KeyedList.lookup_map, KeyedList.lookup_map]
    congr 1
    exact KeyedList.lookup_filter fun t ht htr => hsess t ht fun heq => hne (heq ▸ htr)
  · obtain ⟨acts, hlog, hseen⟩ := hd.log
    have hnew : newActs a.world (a.cut (staying L i.ev s) n).world = acts := newActs_eq hlog
    rw [hnew]
    have hP : ∀ act : Act, (∀ b, act.seen = some b → b.called? = none ∧
        (b.connId? = none ∨ b.connId? = some s.connId)) →
        act.called? = none ∧ (act.connId? = none ∨ act.connId? = some s.connId) := by
      intro act hact
      cases act with
      | bssapLeEnc pdu msg => exact ⟨rfl, .inl rfl⟩
      | msgbFree msg => exact ⟨rfl, .inl rfl⟩
      | sapDown req msg rc => exact hact (.sapDown req 0 rc) rfl
      | _ => exact hact _ rfl
    apply forall_of_seen hP
    intro act hact
    exact sessionEffect_sent (hseen ▸ hact)

end Service

theorem events_independent (L : Libosmo) (w : World) (h : ReachableWorld L w) :
    ∀ x ∈ w.lbConns, ∀ i : Input, x.Addressed i.ev →
      (∀ w', step L w i = .ok w' → w.ChangesOnly x w') ∧
      (∀ y ∈ w.lbConns, y.ptr ≠ x.ptr → ∀ j : Input, y.Addressed j.ev → w.Exchanges L i j) ∧
      ∀ (j : Input) (addr : SccpAddr) (l2 : List UInt8), j.ev = .scu (.nUnitdata addr l2) →
        L.bssmapLeMsgt l2 = .reset → x.lbPeer ≠ some (w.peerOf L addr).ptr →
        w.Exchanges L i j := by
  obtain ⟨scu, a, hr, hwf, rfl⟩ := h.service
  intro x hx i hi
  obtain ⟨s, hs, rfl⟩ := List.mem_map.mp hx
  have his := Service.concerns_of_addressed hi
  refine ⟨fun w' hw' => Service.changesOnly hwf hs his hw', ?_, ?_⟩
  · intro y hy hne j hj
    obtain ⟨t, ht, rfl⟩ := List.mem_map.mp hy
    have hjt := Service.concerns_of_addressed hj
    refine (Service.session_exchanged hwf hs ht hne his hjt).world hwf ?_ ?_
    · intro connId
      by_cases hid : s.connId = connId
      · refine .inr fun act hact heq => ?_
        rcases (Service.sessionEffect_sent hact).2 with hn | hn
        · cases hn.symm.trans heq
        · have hids : t.connId = s.connId := (Option.some.inj (hn.symm.trans heq)).trans hid.symm
          exact hne (congrArg Session.conn (List.inj_on_of_nodup_map hwf.connIds ht hs hids))
      · refine .inl fun act hact heq => ?_
        rcases (Service.sessionEffect_sent hact).2 with hn | hn
        · cases hn.symm.trans heq
        · exact hid (Option.some.inj (hn.symm.trans heq))
    · intro addr
      refine .inl fun act hact heq => ?_
      cases (Service.sessionEffect_sent hact).1.symm.trans heq
  · intro j addr l2 hev hm hp
    rw [Service.peerOf_world] at hp
    have hp' : s.peer ≠ (a.peer L addr).1.ptr := fun heq => hp (congrArg some heq)
    refine (Service.reset_exchanged hwf hs his hev hm hp').world hwf ?_ ?_
    · intro connId
      refine .inr fun act hact heq => ?_
      cases (Service.resetEffect_sent hact).symm.trans heq
    · intro addr'
      refine .inl fun act hact heq => ?_
      cases (Service.sessionEffect_sent hact).1.symm.trans heq

/-- Two connections of one subscriber, and the RESET of another peer. -/
theorem events_independent_two :
    let w := Sample.after Sample.twoConns
    w.ChangesOnly ⟨0, [(.smlcLocReq, 1)], some 0, 1, false, some 0, some 0⟩
      (Sample.after (Sample.twoConns ++ [Sample.data 1 Sample.msgAbort])) ∧
    w.Exchanges Sample.libosmo (Sample.data 1 Sample.msgAbort)
      (Sample.data 2 Sample.msgTaResponse) ∧
    w.Exchanges Sample.libosmo (Sample.data 1 Sample.msgAbort) (Sample.resetFrom Sample.addrB) := by
  intro w
  have hr : ReachableWorld Sample.libosmo w := Sample.reachable (by decide +kernel)
  have hs : Sample.survives (Sample.twoConns ++ [Sample.data 1 Sample.msgAbort]) = true := by
    decide +kernel
  let x : LbConn := ⟨0, [(.smlcLocReq, 1)], some 0, 1, false, some 0, some 0⟩
  let y : LbConn := ⟨1, [(.smlcLocReq, 1)], some 0, 2, false, some 0, some 1⟩
  have hconns : w.lbConns = [y, x] := by decide +kernel
  have hx : x ∈ w.lbConns := by simp [hconns]
  have hy : y ∈ w.lbConns := by simp [hconns]
  have hp : (w.peerOf Sample.libosmo Sample.addrB).ptr = 1 := by decide +kernel
  have hi := events_independent Sample.libosmo w hr x hx (Sample.data 1 Sample.msgAbort)
    (.inl ⟨_, rfl⟩)
  refine ⟨hi.1 _ (Sample.step_after hs), ?_, ?_⟩
  · exact hi.2.1 y hy (by decide) _ (.inl ⟨_, rfl⟩)
  · apply hi.2.2 _ Sample.addrB Sample.msgReset rfl (by decide)
    rw [hp]
    decide

end OsmoSmlc
