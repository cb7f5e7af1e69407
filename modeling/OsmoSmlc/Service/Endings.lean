import OsmoSmlc.Service.Connect
import OsmoSmlc.Service.Content
import OsmoSmlc.Service.PeerTable

/-! Which sessions an event ends: a session lasts until a message on it ends its request, its
T-12 expires, or its peer does a RESET. -/
namespace OsmoSmlc
open Osmo
namespace Service

variable {L : Libosmo} {io : Io} {a a' : Service} {s t : Session} {connId : ConnId} {m : Msg}
  {addr : SccpAddr} {r : ReqPtr} {i : Input}

theorem data_mem (h : a.WF) : t ∈ (a.data L io connId m).sessions ↔
    t ∈ a.sessions ∧ ¬(t.connId = connId ∧ m.ending?.isSome) := by
  cases hfind : a.sessions.find? fun s => s.connId = connId with
  | none =>
    rw [(data_none hfind).1]
    refine ⟨fun ht => ⟨ht, fun hc => ?_⟩, And.left⟩
    exact List.find?_eq_none.mp hfind t ht (by simpa using hc.1)
  | some s =>
    have hs : s ∈ a.sessions := List.mem_of_find?_eq_some hfind
    have hid : s.connId = connId := by simpa using List.find?_some hfind
    rw [(data_some hfind).1]
    cases m with
    | ignored => exact ⟨fun ht => ⟨ht, by simp [Msg.ending?]⟩, And.left⟩
    | request pdu => exact ⟨fun ht => ⟨ht, by simp [Msg.ending?]⟩, And.left⟩
    | ending k =>
      refine KeyedList.mem_remove.trans (and_congr_right fun ht => not_congr ?_)
      constructor
      · intro hc
        have hts : t = s := List.inj_on_of_nodup_map h.conns ht hs hc
        exact ⟨hts ▸ hid, rfl⟩
      · rintro ⟨hc, -⟩
        have hts : t = s := List.inj_on_of_nodup_map h.connIds ht hs (hc.trans hid.symm)
        exact congrArg Session.conn hts

theorem locReqTimeout_mem (h : a.WF) : t ∈ (a.locReqTimeout L io r).sessions ↔
    t ∈ a.sessions ∧ t.req ≠ r := by
  cases hfind : a.sessions.find? fun s => s.req = r with
  | none =>
    rw [(locReqTimeout_none hfind).1]
    exact ⟨fun ht => ⟨ht, by simpa using List.find?_eq_none.mp hfind t ht⟩, And.left⟩
  | some s =>
    have hs : s ∈ a.sessions := List.mem_of_find?_eq_some hfind
    have hreq : s.req = r := by simpa using List.find?_some hfind
    rw [(locReqTimeout_some hfind).1]
    refine KeyedList.mem_remove.trans (and_congr_right fun ht => not_congr ?_)
    constructor
    · intro hc
      have hts : t = s := List.inj_on_of_nodup_map h.conns ht hs hc
      exact hts ▸ hreq
    · intro hc
      have hts : t = s := List.inj_on_of_nodup_map h.reqs ht hs (hc.trans hreq.symm)
      exact congrArg Session.conn hts

/-- The peer of a session is found under its own addresses only. -/
theorem peer_ptr_iff (h : a.WF) (ht : t ∈ a.sessions) :
    (a.peer L addr).1.ptr = t.peer ↔ a.peerTable.find L addr = some t.peer := by
  rw [← peerTable_find]
  cases hfind : a.lbPeers.find? fun x => L.sccpAddrRiCmp addr x.peerAddr = 0 with
  | some x =>
    have hx : (a.peer L addr).1 = x := by simp only [peer, hfind]
    rw [hx]
    simp
  | none =>
    have hx : (a.peer L addr).1.ptr = a.next.peer := by simp only [peer, hfind]
    obtain ⟨y, hy, hyp, -⟩ := h.peerReady t ht
    have hlt : t.peer < a.next.peer := hyp ▸ h.peerBound y hy
    rw [hx]
    simp only [Option.map_none, reduceCtorEq, iff_false]
    exact Nat.ne_of_gt hlt

theorem unitdata_mem {l2 : List UInt8} {msg : MsgbPtr} :
    t ∈ (a.unitdata L io addr l2 msg).sessions ↔
      t ∈ a.sessions ∧ ¬(L.bssmapLeMsgt l2 = .reset ∧ (a.peer L addr).1.ptr = t.peer) := by
  have hs : (a.peer L addr).2.sessions = a.sessions := peer_sessions L a addr
  unfold unitdata
  cases hm : L.bssmapLeMsgt l2 with
  | reset =>
    show t ∈ ((a.peer L addr).2.sessions.filter fun s => s.peer ≠ (a.peer L addr).1.ptr) ↔ _
    rw [List.mem_filter, hs, decide_eq_true_eq, ne_comm]
    exact and_congr_right fun _ => not_congr (by simp)
  | resetAck =>
    dsimp only
    split
    · exact (iff_of_eq (congrArg (t ∈ ·) hs)).trans ⟨fun ht => ⟨ht, by simp⟩, And.left⟩
    · exact (iff_of_eq (congrArg (t ∈ ·) hs)).trans ⟨fun ht => ⟨ht, by simp⟩, And.left⟩
  | other msgt =>
    exact (iff_of_eq (congrArg (t ∈ ·) hs)).trans ⟨fun ht => ⟨ht, by simp⟩, And.left⟩

/-- An N-CONNECT ends no session. -/
theorem step_connect_keeps {l2 : List UInt8} (h : a.WF)
    (hev : i.ev = .scu (.nConnect connId addr l2)) (ho : a.step L i = .ok a')
    (ht : t ∈ a.sessions) : t ∈ a'.sessions := by
  obtain ⟨ev, io⟩ := i
  cases hev
  by_cases hno : l2 = [] ∨ a.world.connById connId ≠ none
  · rw [(step_connect_refused hno ho).1]
    exact ht
  · rw [not_or, not_not] at hno
    obtain ⟨acts, -, hout⟩ := step_connect h hno.1 hno.2 ho
    exact hout.keeps.1 t ht

/-- What ends a session. -/
def EndedBy (L : Libosmo) (a : Service) (s : Session) (ev : Event) : Prop :=
  (ev.endingFor L s.connId s.req).isSome ∨ ∃ addr l2, ev = .scu (.nUnitdata addr l2) ∧
    L.bssmapLeMsgt l2 = .reset ∧ a.peerTable.find L addr = some s.peer

/-- A session that is listed stays listed exactly if the event does not end it. -/
theorem step_mem_iff (h : a.WF) (hs : s ∈ a.sessions) (ho : a.step L i = .ok a') :
    s ∈ a'.sessions ↔ ¬a.EndedBy L s i.ev := by
  obtain ⟨ev, io⟩ := i
  have hplain : ∀ {ev : Event}, (∀ addr l2, ev ≠ .scu (.nUnitdata addr l2)) →
      (a.EndedBy L s ev ↔ (ev.endingFor L s.connId s.req).isSome) := by
    intro ev hne
    refine ⟨fun he => he.resolve_right ?_, .inl⟩
    rintro ⟨addr, l2, rfl, -⟩
    exact hne addr l2 rfl
  have hb : (a.setNet a.net.takeMsgb).WF := h.setNet _
  cases ev with
  | scu prim =>
    cases prim with
    | nConnect connId addr l2 =>
      rw [hplain (by simp)]
      exact iff_of_true (step_connect_keeps h rfl ho hs) (by simp [Event.endingFor])
    | nData connId l2 =>
      cases ho
      rw [hplain (by simp)]
      refine (data_mem hb).trans ((and_iff_right hs).trans (not_congr ?_))
      by_cases hc : connId = s.connId
      · simp [Event.endingFor, hc]
      · simp [Event.endingFor, hc, Ne.symm hc]
    | nDisconnect connId l2 =>
      cases ho
      rw [hplain (by simp)]
      by_cases hlen : l2.length ≠ 0
      · rw [if_pos hlen]
        refine (data_mem hb).trans ((and_iff_right hs).trans (not_congr ?_))
        by_cases hc : connId = s.connId
        · simp [Event.endingFor, hc, hlen]
        · simp [Event.endingFor, hc, Ne.symm hc]
      · rw [if_neg hlen]
        exact iff_of_true hs (by simp [Event.endingFor, hlen])
    | nUnitdata addr l2 =>
      cases ho
      refine unitdata_mem.trans ((and_iff_right hs).trans (not_congr ?_))
      rw [peer_ptr_iff hb hs]
      constructor
      · rintro ⟨hm, hp⟩
        exact .inr ⟨addr, l2, rfl, hm, hp⟩
      · rintro (he | ⟨addr', l2', heq, hm, hp⟩)
        · cases he
        · cases heq
          exact ⟨hm, hp⟩
    | unsupported l2 =>
      cases ho
      rw [hplain (by simp)]
      exact iff_of_true hs (by simp [Event.endingFor])
  | locReqTimer r =>
    cases ho
    rw [hplain (by simp)]
    refine (locReqTimeout_mem h).trans ((and_iff_right hs).trans (not_congr ?_))
    by_cases hr : r = s.req
    · simp [Event.endingFor, hr]
    · simp [Event.endingFor, hr, Ne.symm hr]
  | lbPeerTimer p =>
    cases ho
    rw [hplain (by simp)]
    refine iff_of_true ?_ (by simp [Event.endingFor])
    unfold lbPeerTimeout
    split
    · split
      · exact hs
      · exact hs
    · exact hs
  | vty cmd =>
    cases ho
    rw [hplain (by simp)]
    exact iff_of_true hs (by simp [Event.endingFor])

/-- The request of a session that was not listed before is a new one. -/
theorem step_mem_req (h : a.WF) (ho : a.step L i = .ok a') (ht : t ∈ a'.sessions) :
    t ∈ a.sessions ∨ t.req = a.next.req := by
  have hturn := step_turn h ho
  generalize (a.effect L i).told = told at hturn
  cases hturn with
  | quiet hs hr => exact .inl (hs ▸ ht)
  | ended s k hmem hs hr =>
    rw [hs] at ht
    exact .inl (KeyedList.mem_remove.mp ht).1
  | discarded p hs hr =>
    rw [hs] at ht
    exact .inl (List.mem_filter.mp ht).1
  | opened s addr l2 hev hreq hs hr =>
    rw [hs] at ht
    rcases List.mem_cons.mp ht with rfl | ht
    · exact .inr hreq
    · exact .inl ht
  | answered s ta addr l2 hev hreq hs hr => exact .inl (hs ▸ ht)

theorem step_next_req (h : a.WF) (ho : a.step L i = .ok a') : a.next.req ≤ a'.next.req := by
  have hturn := step_turn h ho
  generalize (a.effect L i).told = told at hturn
  cases hturn with
  | quiet hs hr => exact hr.ge
  | ended s k hmem hs hr => exact hr.ge
  | discarded p hs hr => exact hr.ge
  | opened s addr l2 hev hreq hs hr => exact Nat.le_of_succ_le hr.ge
  | answered s ta addr l2 hev hreq hs hr => exact Nat.le_of_succ_le hr.ge

/-- The request of no session, now and later. -/
def Over (r : ReqPtr) (a : Service) : Prop := r < a.next.req ∧ ∀ t ∈ a.sessions, t.req ≠ r

theorem Over.step (h : a.WF) (hr : a.Over r) (ho : a.step L i = .ok a') : a'.Over r := by
  refine ⟨Nat.lt_of_lt_of_le hr.1 (step_next_req h ho), fun t ht heq => ?_⟩
  rcases step_mem_req h ho ht with ht | hnew
  · exact hr.2 t ht heq
  · exact Nat.ne_of_gt hr.1 (hnew.symm.trans heq)

theorem step_over (h : a.WF) (hs : s ∈ a.sessions) (ho : a.step L i = .ok a')
    (he : a.EndedBy L s i.ev) : a'.Over s.req := by
  have hlt : s.req < a.next.req := h.reqBound s hs
  refine ⟨Nat.lt_of_lt_of_le hlt (step_next_req h ho), fun t ht heq => ?_⟩
  rcases step_mem_req h ho ht with hmem | hnew
  · have hts : t = s := List.inj_on_of_nodup_map h.reqs hmem hs heq
    exact (step_mem_iff h hs ho).mp (hts ▸ ht) he
  · exact Nat.ne_of_gt hlt (hnew.symm.trans heq)

/-- The peer of a session is listed and found under the same addresses as in `a₀`. -/
structure Anchored (L : Libosmo) (a₀ : Service) (s : Session) (a : Service) : Prop where
  wf : a.WF
  listed : ∃ e ∈ a.peerTable, e.1 = s.peer
  find : ∀ addr, a.peerTable.find L addr = some s.peer ↔ a₀.peerTable.find L addr = some s.peer

theorem Anchored.refl (h : a.WF) (hs : s ∈ a.sessions) : Anchored L a s a where
  wf := h
  listed := by
    obtain ⟨y, hy, hyp, -⟩ := h.peerReady s hs
    exact ⟨_, List.mem_map_of_mem hy, hyp⟩
  find _ := Iff.rfl

theorem Anchored.endedBy {a₀ : Service} (h : Anchored L a₀ s a) {ev : Event} :
    a.EndedBy L s ev ↔ a₀.EndedBy L s ev := by
  simp only [EndedBy, h.find]

theorem Anchored.step {a₀ : Service} (hri : L.RiCmpEquivalence) (h : Anchored L a₀ s a)
    (ho : a.step L i = .ok a') : Anchored L a₀ s a' where
  wf := step_wf h.wf ho
  listed := by
    obtain ⟨e, he, hes⟩ := h.listed
    exact ⟨e, step_peerTable_mem ho he, hes⟩
  find addr := by
    have hlt : s.peer < a.next.peer := by
      obtain ⟨e, he, hes⟩ := h.listed
      obtain ⟨y, hy, rfl⟩ := List.mem_map.mp he
      exact hes ▸ h.wf.peerBound y hy
    refine Iff.trans ⟨step_peerTable_find_old ho hlt, step_peerTable_find hri ho⟩ (h.find addr)

end Service
end OsmoSmlc
