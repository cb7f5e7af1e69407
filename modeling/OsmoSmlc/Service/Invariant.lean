import OsmoSmlc.Service.Service

/-! The invariant of the service: its references are to listed objects, its keys are
distinct, a session's peer is READY, and every listed subscriber is in use. -/
namespace OsmoSmlc
open Osmo

section Refs

variable {sessions : List Session} {p : SubscrPtr} {s : Session}

theorem refs_pos_iff : 0 < refs sessions p ↔ ∃ s ∈ sessions, s.subscr = some p := by
  simp [refs, List.countP_pos_iff]

theorem refs_cons : refs (s :: sessions) p
    = refs sessions p + if s.subscr = some p then 1 else 0 := by
  simp [refs, List.countP_cons]

theorem refs_filter_pos {f : Session → Bool} (h : 0 < refs (sessions.filter f) p) :
    0 < refs sessions p := by
  rw [refs_pos_iff] at h ⊢
  obtain ⟨s, hs, hp⟩ := h
  exact ⟨s, (List.mem_filter.mp hs).1, hp⟩

/-- Removing one session takes one reference from its own subscriber only. -/
theorem refs_remove (hnd : (sessions.map Session.conn).Nodup) (hs : s ∈ sessions) :
    refs sessions p = refs (KeyedList.remove Session.conn sessions s.conn) p
      + if s.subscr = some p then 1 else 0 := by
  induction sessions with
  | nil => simp at hs
  | cons t sessions ih =>
    rw [List.map_cons, List.nodup_cons] at hnd
    rcases List.mem_cons.mp hs with rfl | hs'
    · have hne : ∀ t ∈ sessions, t.conn ≠ s.conn := by
        intro t ht heq
        exact hnd.1 (heq ▸ List.mem_map_of_mem ht)
      rw [KeyedList.remove_cons_self s hne, refs_cons]
    · have hne : t.conn ≠ s.conn := fun heq => hnd.1 (heq ▸ List.mem_map_of_mem hs')
      have hcons : KeyedList.remove Session.conn (t :: sessions) s.conn
          = t :: KeyedList.remove Session.conn sessions s.conn := by
        simp [KeyedList.remove, hne]
      rw [hcons, refs_cons, refs_cons, ih hnd.2 hs']
      omega

end Refs

/-- References and keys are in order; a subscriber may be listed without being in use. -/
structure Service.Linked (a : Service) : Prop where
  peerPtrs : (a.lbPeers.map LbPeer.ptr).Nodup
  peerBound : ∀ x ∈ a.lbPeers, x.ptr < a.next.peer
  peerFi : ∀ x ∈ a.lbPeers, x.fi = ⟨x.fi.state, false, lbPeerFsm.timeout x.fi.state⟩
  peerState : ∀ x ∈ a.lbPeers, x.fi.state ≠ .discarding
  conns : (a.sessions.map Session.conn).Nodup
  connBound : ∀ s ∈ a.sessions, s.conn < a.next.conn
  connIds : (a.sessions.map Session.connId).Nodup
  reqs : (a.sessions.map Session.req).Nodup
  reqBound : ∀ s ∈ a.sessions, s.req < a.next.req
  peerReady : ∀ s ∈ a.sessions, ∃ x ∈ a.lbPeers, x.ptr = s.peer ∧ x.fi.state = .ready
  subscrPtrs : (a.subscrs.map Subscr.ptr).Nodup
  subscrBound : ∀ x ∈ a.subscrs, x.ptr < a.nextSubscr
  subscrListed : ∀ s ∈ a.sessions, ∀ p, s.subscr = some p → ∃ x ∈ a.subscrs, x.ptr = p

structure Service.WF (a : Service) : Prop extends a.Linked where
  subscrUsed : ∀ x ∈ a.subscrs, 0 < refs a.sessions x.ptr

namespace Service

variable {L : Libosmo} {io : Io} {a : Service} {s : Session} {n : Net}

theorem init_wf (scu : Bool) : (init scu).WF := by
  constructor
  · constructor <;> simp [init]
  · simp [init]

theorem WF.setNet (h : a.WF) (n : Net) : (a.setNet n).WF :=
  ⟨⟨h.peerPtrs, h.peerBound, h.peerFi, h.peerState, h.conns, h.connBound, h.connIds, h.reqs,
    h.reqBound, h.peerReady, h.subscrPtrs, h.subscrBound, h.subscrListed⟩, h.subscrUsed⟩

theorem WF.emit (h : a.WF) (act : Act) : (a.emit act).WF := h.setNet _

theorem WF.setCells (h : a.WF) (cells : CellStore) :
    ({ a with cellLocations := cells } : Service).WF :=
  ⟨⟨h.peerPtrs, h.peerBound, h.peerFi, h.peerState, h.conns, h.connBound, h.connIds, h.reqs,
    h.reqBound, h.peerReady, h.subscrPtrs, h.subscrBound, h.subscrListed⟩, h.subscrUsed⟩

/-- Giving up unused subscribers restores the whole invariant. -/
theorem Linked.gc (h : a.Linked) : a.gc.WF where
  peerPtrs := h.peerPtrs
  peerBound := h.peerBound
  peerFi := h.peerFi
  peerState := h.peerState
  conns := h.conns
  connBound := h.connBound
  connIds := h.connIds
  reqs := h.reqs
  reqBound := h.reqBound
  peerReady := h.peerReady
  subscrPtrs := h.subscrPtrs.sublist (List.filter_sublist.map _)
  subscrBound x hx := h.subscrBound x (List.mem_filter.mp hx).1
  subscrListed := by
    intro s hs p hp
    obtain ⟨x, hx, rfl⟩ := h.subscrListed s hs p hp
    have hpos : 0 < refs a.sessions x.ptr := refs_pos_iff.mpr ⟨s, hs, hp⟩
    exact ⟨x, List.mem_filter.mpr ⟨hx, by simpa using hpos⟩, rfl⟩
  subscrUsed := by
    intro x hx
    exact of_decide_eq_true (List.mem_filter.mp hx).2

theorem WF.gc_eq (h : a.WF) : a.gc = a := by
  have hall : a.subscrs.filter (fun x => 0 < refs a.sessions x.ptr) = a.subscrs := by
    apply List.filter_eq_self.mpr
    intro x hx
    simpa using h.subscrUsed x hx
  simp [Service.gc, hall]

theorem find_connId (h : a.WF) (hs : s ∈ a.sessions) :
    a.sessions.find? (fun t => t.connId = s.connId) = some s :=
  KeyedList.lookup_of_mem h.connIds hs

theorem find_req (h : a.WF) (hs : s ∈ a.sessions) :
    a.sessions.find? (fun t => t.req = s.req) = some s :=
  KeyedList.lookup_of_mem h.reqs hs

/-- The peer of a connection is listed. -/
theorem WF.world_peer (h : a.WF) {x : LbConn} (hx : x ∈ a.world.lbConns) :
    ∃ p ∈ a.lbPeers, x.lbPeer = some p.ptr := by
  obtain ⟨s, hs, rfl⟩ := List.mem_map.mp hx
  obtain ⟨p, hp, hps, -⟩ := h.peerReady s hs
  exact ⟨p, hp, congrArg some hps.symm⟩

theorem WF.world_connIds (h : a.WF) : (a.world.lbConns.map LbConn.sccpConnId).Nodup := by
  show ((a.sessions.map Session.lbConn).map LbConn.sccpConnId).Nodup
  rw [List.map_map]
  exact h.connIds

theorem Linked.filter (h : a.Linked) (f : Session → Bool) (n : Net) :
    ({ a with sessions := a.sessions.filter f, net := n } : Service).Linked where
  peerPtrs := h.peerPtrs
  peerBound := h.peerBound
  peerFi := h.peerFi
  peerState := h.peerState
  conns := h.conns.sublist (List.filter_sublist.map _)
  connBound s hs := h.connBound s (List.mem_filter.mp hs).1
  connIds := h.connIds.sublist (List.filter_sublist.map _)
  reqs := h.reqs.sublist (List.filter_sublist.map _)
  reqBound s hs := h.reqBound s (List.mem_filter.mp hs).1
  peerReady s hs := h.peerReady s (List.mem_filter.mp hs).1
  subscrPtrs := h.subscrPtrs
  subscrBound := h.subscrBound
  subscrListed s hs := h.subscrListed s (List.mem_filter.mp hs).1

theorem WF.drop (h : a.WF) (s : Session) (n : Net) : (a.drop s n).WF :=
  (h.toLinked.filter _ n).gc

theorem WF.discardAll (h : a.WF) (p : PeerPtr) : (a.discardAll p).WF :=
  (h.toLinked.filter _ _).gc

theorem WF.finish (h : a.WF) (s : Session) (e : Ending) : (a.finish L io s e).WF := h.drop s _

theorem WF.rx (h : a.WF) (s : Session) (m : Msg) : (a.rx L io s m).WF := by
  cases m with
  | ignored => exact h
  | request pdu => exact h.setNet _
  | ending e => exact h.finish s e

theorem WF.data (h : a.WF) (connId : ConnId) (m : Msg) : (a.data L io connId m).WF := by
  unfold Service.data
  split
  · exact (h.emit _).rx _ m
  · exact h

section Bind

variable {imsi : MobileIdentity} {pdu : PerformLocReq}

theorem bind_linked (h : a.WF) : (a.bind L imsi).2.Linked := by
  unfold Service.bind
  split
  · exact h.toLinked
  · refine ⟨h.peerPtrs, h.peerBound, h.peerFi, h.peerState, h.conns, h.connBound, h.connIds,
      h.reqs, h.reqBound, h.peerReady, ?_, ?_, ?_⟩
    · rw [List.map_append, List.nodup_append]
      refine ⟨h.subscrPtrs, by simp, ?_⟩
      intro p hp q hq heq
      obtain ⟨x, hx, rfl⟩ := List.mem_map.mp hp
      have hlt := h.subscrBound x hx
      have hq' : q = a.nextSubscr := by simpa using hq
      exact absurd (heq.trans hq') (Nat.ne_of_lt hlt)
    · intro x hx
      rcases List.mem_append.mp hx with hx | hx
      · exact Nat.lt_succ_of_lt (h.subscrBound x hx)
      · rw [List.mem_singleton.mp hx]
        exact Nat.lt_succ_self _
    · intro s hs p hp
      obtain ⟨x, hx, hxp⟩ := h.subscrListed s hs p hp
      exact ⟨x, List.mem_append_left _ hx, hxp⟩

theorem bind_listed : ∃ x ∈ (a.bind L imsi).2.subscrs, x.ptr = (a.bind L imsi).1 := by
  unfold Service.bind
  split
  · rename_i x hx
    exact ⟨x, List.mem_of_find?_eq_some hx, rfl⟩
  · exact ⟨⟨a.nextSubscr, imsi⟩, by simp, rfl⟩

/-- A subscriber that is listed after binding was listed before, or is the bound one. -/
theorem bind_used (h : a.WF) {x : Subscr} (hx : x ∈ (a.bind L imsi).2.subscrs) :
    0 < refs a.sessions x.ptr ∨ x.ptr = (a.bind L imsi).1 := by
  unfold Service.bind at hx ⊢
  split at hx
  · exact .inl (h.subscrUsed x hx)
  · rcases List.mem_append.mp hx with hx | hx
    · exact .inl (h.subscrUsed x hx)
    · rw [List.mem_singleton.mp hx]
      exact .inr rfl

/-- Binding changes nothing but the subscribers. -/
theorem bind_frame : (a.bind L imsi).2 =
    { a with subscrs := (a.bind L imsi).2.subscrs, nextSubscr := (a.bind L imsi).2.nextSubscr } := by
  unfold Service.bind
  split <;> rfl

theorem bindRequest_imsi (h : pdu.imsi.type = .imsi) :
    a.bindRequest L pdu = (some (a.bind L pdu.imsi).1, (a.bind L pdu.imsi).2) := by
  simp [bindRequest, h]

theorem bindRequest_other (h : pdu.imsi.type ≠ .imsi) : a.bindRequest L pdu = (none, a) := by
  simp [bindRequest, h]

theorem bindRequest_linked (h : a.WF) : (a.bindRequest L pdu).2.Linked := by
  by_cases ht : pdu.imsi.type = .imsi
  · rw [bindRequest_imsi ht]
    exact bind_linked h
  · rw [bindRequest_other ht]
    exact h.toLinked

theorem bindRequest_listed {p : SubscrPtr} (hp : (a.bindRequest L pdu).1 = some p) :
    ∃ x ∈ (a.bindRequest L pdu).2.subscrs, x.ptr = p := by
  by_cases ht : pdu.imsi.type = .imsi
  · rw [bindRequest_imsi ht] at hp ⊢
    cases hp
    exact bind_listed
  · rw [bindRequest_other ht] at hp
    cases hp

theorem bindRequest_used (h : a.WF) {x : Subscr} (hx : x ∈ (a.bindRequest L pdu).2.subscrs) :
    0 < refs a.sessions x.ptr ∨ (a.bindRequest L pdu).1 = some x.ptr := by
  by_cases ht : pdu.imsi.type = .imsi
  · rw [bindRequest_imsi ht] at hx ⊢
    rcases bind_used h hx with hu | hu
    · exact .inl hu
    · exact .inr (congrArg some hu.symm)
  · rw [bindRequest_other ht] at hx
    exact .inl (h.subscrUsed x hx)

theorem bindRequest_frame : (a.bindRequest L pdu).2 =
    { a with
      subscrs := (a.bindRequest L pdu).2.subscrs
      nextSubscr := (a.bindRequest L pdu).2.nextSubscr } := by
  by_cases ht : pdu.imsi.type = .imsi
  · rw [bindRequest_imsi ht]
    exact bind_frame
  · rw [bindRequest_other ht]

end Bind

section Open

variable {p : PeerPtr} {connId : ConnId} {pdu : PerformLocReq}

theorem WF.withSession (h : a.WF) (hp : ∃ x ∈ a.lbPeers, x.ptr = p ∧ x.fi.state = .ready)
    (hc : ∀ s ∈ a.sessions, s.connId ≠ connId) :
    (a.withSession L p connId pdu n).WF := by
  have hl : (a.bindRequest L pdu).2.Linked := bindRequest_linked h
  have hpeers : (a.bindRequest L pdu).2.lbPeers = a.lbPeers := by rw [bindRequest_frame]
  have hsess : (a.bindRequest L pdu).2.sessions = a.sessions := by rw [bindRequest_frame]
  have hcons : ∀ {f : Session → Nat} {b : Nat}, (∀ s ∈ a.sessions, f s < b) →
      b ∉ a.sessions.map f := by
    intro f b hb hm
    obtain ⟨s, hs, heq⟩ := List.mem_map.mp hm
    have hlt := hb s hs
    omega
  refine ⟨⟨?_, ?_, ?_, ?_, ?_, ?_, ?_, ?_, ?_, ?_, hl.subscrPtrs, hl.subscrBound, ?_⟩, ?_⟩
  · show ((a.bindRequest L pdu).2.lbPeers.map LbPeer.ptr).Nodup
    exact hl.peerPtrs
  · intro x hx
    have hx' : x ∈ a.lbPeers := hpeers ▸ hx
    exact h.peerBound x hx'
  · exact hl.peerFi
  · exact hl.peerState
  · exact List.nodup_cons.mpr ⟨hcons h.connBound, h.conns⟩
  · intro s hs
    rcases List.mem_cons.mp hs with rfl | hs
    · exact Nat.lt_succ_self _
    · exact Nat.lt_succ_of_lt (h.connBound s hs)
  · refine List.nodup_cons.mpr ⟨?_, h.connIds⟩
    intro hm
    obtain ⟨s, hs, heq⟩ := List.mem_map.mp hm
    exact hc s hs heq
  · exact List.nodup_cons.mpr ⟨hcons h.reqBound, h.reqs⟩
  · intro s hs
    rcases List.mem_cons.mp hs with rfl | hs
    · exact Nat.lt_succ_self _
    · exact Nat.lt_succ_of_lt (h.reqBound s hs)
  · intro s hs
    show ∃ x ∈ (a.bindRequest L pdu).2.lbPeers, _
    rw [hpeers]
    rcases List.mem_cons.mp hs with rfl | hs
    · exact hp
    · exact h.peerReady s hs
  · intro s hs q hq
    rcases List.mem_cons.mp hs with rfl | hs
    · exact bindRequest_listed hq
    · exact hl.subscrListed s (hsess ▸ hs) q hq
  · intro x hx
    show 0 < refs (a.newSession L p connId pdu :: a.sessions) x.ptr
    rw [refs_cons]
    rcases bindRequest_used h hx with hu | hu
    · omega
    · simp [newSession, hu]

theorem WF.openSession (h : a.WF) (hp : ∃ x ∈ a.lbPeers, x.ptr = p ∧ x.fi.state = .ready)
    (hc : ∀ s ∈ a.sessions, s.connId ≠ connId) :
    (a.openSession L io p connId pdu).WF := by
  unfold Service.openSession
  split
  · exact (h.withSession hp hc).drop _ _
  · exact h.withSession hp hc

theorem WF.openConn {m : Msg} {a' : Service} (h : a.WF)
    (hp : ∃ x ∈ a.lbPeers, x.ptr = p ∧ x.fi.state = .ready)
    (hc : ∀ s ∈ a.sessions, s.connId ≠ connId)
    (ho : a.openConn L io p connId m = .ok a') : a'.WF := by
  cases m with
  | ignored =>
    cases ho
    refine ⟨⟨h.peerPtrs, h.peerBound, h.peerFi, h.peerState, h.conns, ?_, h.connIds, h.reqs,
      h.reqBound, h.peerReady, h.subscrPtrs, h.subscrBound, h.subscrListed⟩, h.subscrUsed⟩
    intro s hs
    exact Nat.lt_succ_of_lt (h.connBound s hs)
  | request pdu =>
    cases ho
    exact h.openSession hp hc
  | ending e => cases ho

end Open

section Peers

variable {x : LbPeer} {addr : SccpAddr} {connId : ConnId} {st : LbPeerState} {msg : MsgbPtr}

theorem peer_mem : (a.peer L addr).1 ∈ (a.peer L addr).2.lbPeers := by
  unfold Service.peer
  split
  · rename_i x hx
    exact List.mem_of_find?_eq_some hx
  · exact List.mem_cons_self

/-- Finding or creating a peer changes nothing but the peers. -/
theorem peer_frame : (a.peer L addr).2 =
    { a with lbPeers := (a.peer L addr).2.lbPeers, next := (a.peer L addr).2.next } := by
  unfold Service.peer
  split <;> rfl

theorem WF.peer (h : a.WF) : (a.peer L addr).2.WF := by
  unfold Service.peer
  split
  · exact h
  · refine ⟨⟨?_, ?_, ?_, ?_, h.conns, h.connBound, h.connIds, h.reqs,
      h.reqBound, ?_, h.subscrPtrs, h.subscrBound, h.subscrListed⟩, h.subscrUsed⟩
    · refine List.nodup_cons.mpr ⟨?_, h.peerPtrs⟩
      intro hm
      obtain ⟨x, hx, heq⟩ := List.mem_map.mp hm
      exact absurd heq (Nat.ne_of_lt (h.peerBound x hx))
    · intro x hx
      rcases List.mem_cons.mp hx with rfl | hx
      · exact Nat.lt_succ_self _
      · exact Nat.lt_succ_of_lt (h.peerBound x hx)
    · intro x hx
      rcases List.mem_cons.mp hx with rfl | hx
      · rfl
      · exact h.peerFi x hx
    · intro x hx
      rcases List.mem_cons.mp hx with rfl | hx
      · exact LbPeerState.noConfusion
      · exact h.peerState x hx
    · intro s hs
      obtain ⟨x, hx, hp⟩ := h.peerReady s hs
      exact ⟨x, List.mem_cons_of_mem _ hx, hp⟩

/-- A peer with sessions stays READY. -/
theorem WF.setPeer {p : PeerPtr} (h : a.WF) (hst : st ≠ .discarding)
    (hp : st = .ready ∨ ∀ s ∈ a.sessions, s.peer ≠ p) : (a.setPeer p st).WF := by
  have hmem : ∀ y ∈ (a.setPeer p st).lbPeers, ∃ x ∈ a.lbPeers, y.ptr = x.ptr ∧
      (y = x ∨ y.fi = ⟨st, false, lbPeerFsm.timeout st⟩) := by
    intro y hy
    obtain ⟨x, hx, rfl⟩ := List.mem_map.mp hy
    refine ⟨x, hx, ?_⟩
    split
    · exact ⟨rfl, .inr rfl⟩
    · exact ⟨rfl, .inl rfl⟩
  refine ⟨⟨?_, ?_, ?_, ?_, h.conns, h.connBound, h.connIds, h.reqs,
    h.reqBound, ?_, h.subscrPtrs, h.subscrBound, h.subscrListed⟩, h.subscrUsed⟩
  · have hmap : (a.setPeer p st).lbPeers.map LbPeer.ptr = a.lbPeers.map LbPeer.ptr :=
      KeyedList.map_key_update fun _ => rfl
    rw [hmap]
    exact h.peerPtrs
  · intro y hy
    obtain ⟨x, hx, hptr, -⟩ := hmem y hy
    exact hptr ▸ h.peerBound x hx
  · intro y hy
    obtain ⟨x, hx, -, rfl | hfi⟩ := hmem y hy
    · exact h.peerFi y hx
    · rw [hfi]
  · intro y hy
    obtain ⟨x, hx, -, rfl | hfi⟩ := hmem y hy
    · exact h.peerState y hx
    · rw [hfi]
      exact hst
  · intro s hs
    obtain ⟨x, hx, hxp, hxr⟩ := h.peerReady s hs
    refine ⟨_, List.mem_map_of_mem hx, ?_⟩
    split
    · rename_i heq
      rcases hp with rfl | hp
      · exact ⟨hxp, rfl⟩
      · exact absurd (hxp.symm.trans heq) (hp s hs)
    · exact ⟨hxp, hxr⟩

theorem sendReset_state (io : Io) (addr : SccpAddr) (n : Net) :
    (n.sendReset io addr).1 = .waitRxReset ∨ (n.sendReset io addr).1 = .waitRxResetAck := by
  unfold Net.sendReset
  split
  · exact .inl rfl
  · dsimp only
    split
    · exact .inl rfl
    · exact .inr rfl

theorem sendResetAck_state (io : Io) (addr : SccpAddr) (msg : MsgbPtr) (n : Net) :
    (n.sendResetAck io addr msg).1 = .waitRxReset ∨ (n.sendResetAck io addr msg).1 = .ready := by
  unfold Net.sendResetAck
  split
  · exact .inl rfl
  · dsimp only
    split
    · exact .inl rfl
    · exact .inr rfl

theorem WF.reset (h : a.WF) (hs : ∀ s ∈ a.sessions, s.peer ≠ x.ptr) : (a.reset io x).WF := by
  refine (h.setPeer ?_ (.inr hs)).setNet _
  rcases sendReset_state io x.peerAddr a.net with hst | hst <;> rw [hst]
  · exact LbPeerState.noConfusion
  · exact LbPeerState.noConfusion

theorem WF.ackReset (h : a.WF) (hs : ∀ s ∈ a.sessions, s.peer ≠ x.ptr) :
    (a.ackReset io x msg).WF := by
  refine (h.setPeer ?_ (.inr hs)).setNet _
  rcases sendResetAck_state io x.peerAddr msg a.net with hst | hst <;> rw [hst]
  · exact LbPeerState.noConfusion
  · exact LbPeerState.noConfusion

theorem discardAll_peer {p : PeerPtr} : ∀ s ∈ (a.discardAll p).sessions, s.peer ≠ p := by
  intro s hs
  exact of_decide_eq_true (List.mem_filter.mp hs).2

theorem WF.rxReset (h : a.WF) : (a.rxReset io x msg).WF :=
  (h.discardAll _).ackReset discardAll_peer

/-- A peer outside READY has no sessions. -/
theorem WF.no_sessions (h : a.WF) (hx : x ∈ a.lbPeers) (hst : x.fi.state ≠ .ready) :
    ∀ s ∈ a.sessions, s.peer ≠ x.ptr := by
  intro s hs heq
  obtain ⟨y, hy, hyp, hyr⟩ := h.peerReady s hs
  have hxy : x = y := List.inj_on_of_nodup_map h.peerPtrs hx hy (heq.symm.trans hyp.symm)
  exact hst (hxy ▸ hyr)

theorem WF.connectTo {m : Msg} {a' : Service} (h : a.WF) (hx : x ∈ a.lbPeers)
    (hc : ∀ s ∈ a.sessions, s.connId ≠ connId)
    (ho : a.connectTo L io x connId m = .ok a') : a'.WF := by
  unfold Service.connectTo at ho
  split at ho
  · rename_i hst
    cases ho
    exact h.reset (h.no_sessions hx (by simp [hst]))
  · rename_i hst
    cases ho
    exact (h.emit _).reset (h.no_sessions hx (by simp [hst]))
  · rename_i hst
    exact h.openConn ⟨x, hx, rfl, hst⟩ hc ho
  · cases ho
    exact h

theorem WF.connect {m : Msg} {a' : Service} (h : a.WF)
    (ho : a.connect L io connId addr m = .ok a') : a'.WF := by
  unfold Service.connect at ho
  split at ho
  · cases ho
    exact h.emit _
  · rename_i hany
    refine (h.peer.emit _).connectTo peer_mem ?_ ho
    intro s hs heq
    have hs' : s ∈ (a.peer L addr).2.sessions := hs
    rw [peer_frame] at hs'
    exact hany (List.any_eq_true.mpr ⟨s, hs', by simpa using heq⟩)

theorem WF.unitdata {l2 : List UInt8} (h : a.WF) : (a.unitdata L io addr l2 msg).WF := by
  unfold Service.unitdata
  dsimp only
  split
  · exact (((h.peer).emit _).emit _).rxReset
  · split
    · rename_i hst
      refine (((h.peer).emit _).emit _).setPeer LbPeerState.noConfusion (.inl rfl)
    · exact ((h.peer).emit _).emit _
  · exact (h.peer).emit _

end Peers

theorem WF.rxPrim {msg : MsgbPtr} {prim : ScuInd} {a' : Service} (h : a.WF)
    (ho : a.rxPrim L io msg prim = .ok a') : a'.WF := by
  cases prim with
  | nConnect connId addr l2 =>
    simp only [Service.rxPrim] at ho
    split at ho
    · cases ho
      exact h
    · exact (h.emit _).connect ho
  | nData connId l2 =>
    cases ho
    exact h.data connId _
  | nDisconnect connId l2 =>
    cases ho
    split
    · exact (h.data connId _).emit _
    · exact h.emit _
  | nUnitdata addr l2 =>
    cases ho
    exact h.unitdata
  | unsupported l2 =>
    cases ho
    exact h

theorem WF.locReqTimeout (h : a.WF) (r : ReqPtr) : (a.locReqTimeout L io r).WF := by
  unfold Service.locReqTimeout
  split
  · exact h.finish _ _
  · exact h

theorem WF.lbPeerTimeout (h : a.WF) (p : PeerPtr) : (a.lbPeerTimeout p).WF := by
  unfold Service.lbPeerTimeout
  split
  · rename_i x hx
    split
    · rename_i ht
      refine h.setPeer LbPeerState.noConfusion (.inr ?_)
      obtain ⟨hmem, rfl⟩ := KeyedList.lookup_some_mem hx
      apply h.no_sessions hmem
      rw [h.peerFi x hmem] at ht
      intro hst
      rw [hst] at ht
      cases ht
    · exact h
  · exact h

/-- One event keeps the invariant. -/
theorem step_wf {i : Input} {a' : Service} (h : a.WF) (hs : a.step L i = .ok a') : a'.WF := by
  obtain ⟨ev, io⟩ := i
  cases ev with
  | scu prim =>
    simp only [Service.step, Service.handle] at hs
    split at hs
    · rename_i b hb
      cases hs
      exact ((h.setNet _).rxPrim hb).emit _
    · cases hs
  | locReqTimer r =>
    cases hs
    exact h.locReqTimeout r
  | lbPeerTimer p =>
    cases hs
    exact h.lbPeerTimeout p
  | vty cmd =>
    cases hs
    exact h.setCells _

end Service
end OsmoSmlc
