import OsmoSmlc.Properties.ObjectGraph
import OsmoSmlc.Properties.OneConnPerSubscr

/-! The subscriber store counts the pending requests: it lists the IMSIs that they name, each
with as many tokens as there are requests that name it. -/
namespace OsmoSmlc
open Osmo

/-- What the store and the connections say of the IMSIs of the pending requests. -/
structure World.Bindings (w : World) : Prop where
  unbound : ∀ x ∈ w.lbConns, ∀ q ∈ w.locReqs, x.smlcLocReq = some q.ptr →
    (x.smlcSubscr = none ↔ q.req.imsi.type ≠ .imsi)
  bound : ∀ x ∈ w.lbConns, ∀ q ∈ w.locReqs, x.smlcLocReq = some q.ptr →
    ∀ y ∈ w.subscrs.list, (x.smlcSubscr = some y.ptr ↔ q.req.imsi = y.imsi)
  listed : ∀ imsi, (∃ y ∈ w.subscrs.list, y.imsi = imsi) ↔
    imsi.type = .imsi ∧ ∃ q ∈ w.locReqs, q.req.imsi = imsi
  counted : ∀ y ∈ w.subscrs.list,
    y.useCount = [(.lbConn, (w.locReqs.countP (fun q => q.req.imsi = y.imsi) : Int))]

/-- Each session is bound to the subscriber that its request names. -/
def Service.Named (a : Service) : Prop := ∀ s ∈ a.sessions,
  (s.pdu.imsi.type = .imsi → ∃ x ∈ a.subscrs, s.subscr = some x.ptr ∧ x.imsi = s.pdu.imsi) ∧
  (s.pdu.imsi.type ≠ .imsi → s.subscr = none)

namespace Service

variable {L : Libosmo} {io : Io} {a a' b : Service} {s : Session} {connId : ConnId} {m : Msg}
  {addr : SccpAddr} {p : PeerPtr} {x : LbPeer} {pdu : PerformLocReq} {i : Input}

/-- The subscribers after a step are old ones, or the one that was about to be created. -/
def KeepsSubscrs (a a' : Service) : Prop :=
  ∀ y ∈ a'.subscrs, y ∈ a.subscrs ∨ y.ptr = a.nextSubscr

theorem bindRequest_keepsSubscrs : a.KeepsSubscrs (a.bindRequest L pdu).2 := by
  intro y hy
  by_cases ht : pdu.imsi.type = .imsi
  · rw [bindRequest_imsi ht] at hy
    unfold bind at hy
    split at hy
    · exact .inl hy
    · rcases List.mem_append.mp hy with hy | hy
      · exact .inl hy
      · rw [List.mem_singleton.mp hy]
        exact .inr rfl
  · rw [bindRequest_other ht] at hy
    exact .inl hy

theorem openSession_keepsSubscrs : a.KeepsSubscrs (a.openSession L io p connId pdu) := by
  by_cases hta : ∃ ta, pdu.apdu = some (.taLayer3 ta)
  · obtain ⟨ta, hta⟩ := hta
    rw [openSession_answered hta]
    exact fun y hy => bindRequest_keepsSubscrs y (List.mem_filter.mp hy).1
  · rw [openSession_pending fun ta h => hta ⟨ta, h⟩]
    exact bindRequest_keepsSubscrs

theorem data_keepsSubscrs : a.KeepsSubscrs (a.data L io connId m) := by
  unfold data
  split
  · cases m with
    | ignored => exact fun _ => .inl
    | request pdu => exact fun _ => .inl
    | ending k => exact fun _ hy => .inl (List.mem_filter.mp hy).1
  · exact fun _ => .inl

theorem unitdata_keepsSubscrs {l2 : List UInt8} {msg : MsgbPtr} :
    a.KeepsSubscrs (a.unitdata L io addr l2 msg) := by
  have hpeer : (a.peer L addr).2.subscrs = a.subscrs := (peer_subscrs L a addr).1
  unfold unitdata
  cases L.bssmapLeMsgt l2 with
  | reset => exact fun _ hy => .inl (hpeer ▸ (List.mem_filter.mp hy).1)
  | resetAck =>
    dsimp only
    split
    · exact fun _ hy => .inl (hpeer ▸ hy)
    · exact fun _ hy => .inl (hpeer ▸ hy)
  | other msgt => exact fun _ hy => .inl (hpeer ▸ hy)

theorem connectTo_keepsSubscrs (ho : a.connectTo L io x connId m = .ok a') : a.KeepsSubscrs a' := by
  unfold connectTo at ho
  split at ho
  · cases ho
    exact fun _ => .inl
  · cases ho
    exact fun _ => .inl
  · cases m with
    | ignored =>
      cases ho
      exact fun _ => .inl
    | request pdu =>
      cases ho
      exact openSession_keepsSubscrs
    | ending k => cases ho
  · cases ho
    exact fun _ => .inl

theorem connect_keepsSubscrs (ho : a.connect L io connId addr m = .ok a') : a.KeepsSubscrs a' := by
  obtain ⟨hpeer, hnext⟩ := peer_subscrs L a addr
  unfold connect at ho
  split at ho
  · cases ho
    exact fun _ => .inl
  · intro y hy
    have hkeep := connectTo_keepsSubscrs ho y hy
    exact hkeep.imp (fun h => hpeer ▸ h) fun h => h.trans hnext

theorem step_keepsSubscrs (ho : a.step L i = .ok a') : a.KeepsSubscrs a' := by
  obtain ⟨ev, io⟩ := i
  let b := a.setNet a.net.takeMsgb
  cases ev with
  | scu prim =>
    simp only [step, handle] at ho
    split at ho
    · rename_i c hc
      cases ho
      show b.KeepsSubscrs c
      cases prim with
      | nConnect connId addr l2 =>
        simp only [rxPrim] at hc
        split at hc
        · cases hc
          exact fun _ => .inl
        · exact connect_keepsSubscrs (a := b.emit (.connResp connId)) hc
      | nData connId l2 =>
        cases hc
        exact data_keepsSubscrs (a := b)
      | nDisconnect connId l2 =>
        cases hc
        split
        · exact data_keepsSubscrs (a := b)
        · exact fun _ => .inl
      | nUnitdata addr l2 =>
        cases hc
        exact unitdata_keepsSubscrs (a := b)
      | unsupported l2 =>
        cases hc
        exact fun _ => .inl
    · cases ho
  | locReqTimer r =>
    cases ho
    show a.KeepsSubscrs (a.locReqTimeout L io r)
    unfold locReqTimeout
    split
    · exact fun _ hy => .inl (List.mem_filter.mp hy).1
    · exact fun _ => .inl
  | lbPeerTimer p =>
    cases ho
    show a.KeepsSubscrs (a.lbPeerTimeout p)
    unfold lbPeerTimeout
    split
    · split
      · exact fun _ => .inl
      · exact fun _ => .inl
    · exact fun _ => .inl
  | vty cmd =>
    cases ho
    exact fun _ => .inl

/-- The binding of a request is to the subscriber with its IMSI. -/
theorem bindRequest_named (hid : L.ImsiCmpEq) (hd : a.Distinct L) (ht : pdu.imsi.type = .imsi) :
    ∃ y ∈ (a.bindRequest L pdu).2.subscrs, (a.bindRequest L pdu).1 = some y.ptr ∧ y.imsi = pdu.imsi := by
  rw [bindRequest_imsi ht]
  unfold bind
  split
  · rename_i y hy
    have hmem : y ∈ a.subscrs := List.mem_of_find?_eq_some hy
    have hcmp : L.mobileIdentityCmp y.imsi pdu.imsi = 0 := by simpa using List.find?_some hy
    exact ⟨y, hmem, rfl, (hid _ _ (hd.types y hmem) ht).mp hcmp⟩
  · exact ⟨⟨a.nextSubscr, pdu.imsi⟩, by simp, rfl, rfl⟩

/-- A session that was opened by a step is bound by its request. -/
theorem step_opened {l2 : List UInt8} (h : a.WF)
    (ho : a.step L ⟨.scu (.nConnect connId addr l2), io⟩ = .ok a') (hs : a'.sessions = s :: a.sessions) :
    s.subscr = (a.bindRequest L s.pdu).1 ∧ a'.subscrs = (a.bindRequest L s.pdu).2.subscrs := by
  have hne : a'.sessions ≠ a.sessions := by
    intro heq
    have hlen := congrArg List.length (hs.symm.trans heq)
    simp at hlen
  have hgo : ¬(l2 = [] ∨ a.world.connById connId ≠ none) :=
    fun hr => hne (step_connect_refused hr ho).1
  rw [not_or, not_not] at hgo
  obtain ⟨acts, -, hout⟩ := step_connect h hgo.1 hgo.2 ho
  cases hout with
  | refused hx hs' => exact absurd hs' hne
  | disconnected hx hs' => exact absurd hs' hne
  | ignored hx hm hs' => exact absurd hs' hne
  | answered s' ta hx hm hcc hid hs' => exact absurd hs' hne
  | opened s' hx hm hcc hid hp hsub hs' hbind =>
    obtain rfl : s = s' := (List.cons.inj (hs.symm.trans hs')).1
    exact ⟨hsub, hbind⟩

/-- A subscriber that a session is bound to stays the same as long as the session does. -/
theorem Named.keep (hn : a.Named) (h : a.WF) (hwf' : a'.WF) (hk : a.KeepsSubscrs a')
    (hs : s ∈ a.sessions) (hs' : s ∈ a'.sessions) :
    (s.pdu.imsi.type = .imsi → ∃ y ∈ a'.subscrs, s.subscr = some y.ptr ∧ y.imsi = s.pdu.imsi) ∧
    (s.pdu.imsi.type ≠ .imsi → s.subscr = none) := by
  obtain ⟨hbound, hunbound⟩ := hn s hs
  refine ⟨fun ht => ?_, hunbound⟩
  obtain ⟨y, hy, hptr, himsi⟩ := hbound ht
  obtain ⟨z, hz, hzp⟩ := hwf'.subscrListed s hs' _ hptr
  rcases hk z hz with hold | hnew
  · obtain rfl : z = y := List.inj_on_of_nodup_map h.subscrPtrs hold hy hzp
    exact ⟨z, hz, hptr, himsi⟩
  · have hlt := h.subscrBound y hy
    exact absurd (hzp.symm.trans hnew) (Nat.ne_of_lt hlt)

theorem step_named (hid : L.ImsiCmpEq) (h : a.WF) (hd : a.Distinct L) (hn : a.Named)
    (ho : a.step L i = .ok a') : a'.Named := by
  have hwf' := step_wf h ho
  have hk := step_keepsSubscrs ho
  have hturn := step_turn h ho
  generalize (a.effect L i).told = told at hturn
  intro t ht
  cases hturn with
  | quiet hs hr => exact hn.keep h hwf' hk (hs ▸ ht) ht
  | ended s k hmem hs hr => exact hn.keep h hwf' hk (KeyedList.mem_remove.mp (hs ▸ ht)).1 ht
  | discarded p hs hr => exact hn.keep h hwf' hk (List.mem_filter.mp (hs ▸ ht)).1 ht
  | answered s ta addr l2 hev hreq hs hr => exact hn.keep h hwf' hk (hs ▸ ht) ht
  | opened s addr l2 hev hreq hs hr =>
    have hmem := ht
    rw [hs] at hmem
    rcases List.mem_cons.mp hmem with rfl | hold
    · obtain ⟨ev, io⟩ := i
      obtain rfl : ev = _ := hev
      obtain ⟨hsub, hsubscrs⟩ := step_opened h ho hs
      rw [hsub, hsubscrs]
      refine ⟨bindRequest_named hid hd, fun htype => ?_⟩
      rw [bindRequest_other htype]
    · exact hn.keep h hwf' hk hold ht

theorem reachable_named {scu : Bool} (hid : L.ImsiCmpEq) (h : Reachable (step L) (init scu) a) :
    a.Named := by
  have hinv : a.WF ∧ a.Distinct L ∧ a.Named := by
    refine h.invariant (I := fun b => b.WF ∧ b.Distinct L ∧ b.Named) ?_ ?_
    · rintro b i b' ⟨hwf, hd, hn⟩ ho
      exact ⟨step_wf hwf ho, step_distinct hd ho, step_named hid hwf hd hn ho⟩
    · exact ⟨init_wf scu, init_distinct scu, fun s hs => absurd hs List.not_mem_nil⟩
  exact hinv.2.2

/-- A session is bound to a listed subscriber exactly if its request names this one. -/
theorem Named.subscr_iff (hn : a.Named) (hid : L.ImsiCmpEq) (h : a.WF) (hd : a.Distinct L)
    (hs : s ∈ a.sessions) {y : Subscr} (hy : y ∈ a.subscrs) :
    s.subscr = some y.ptr ↔ s.pdu.imsi = y.imsi := by
  obtain ⟨hbound, hunbound⟩ := hn s hs
  constructor
  · intro hp
    have ht : s.pdu.imsi.type = .imsi := by
      by_contra ht
      rw [hunbound ht] at hp
      cases hp
    obtain ⟨z, hz, hzp, himsi⟩ := hbound ht
    have hptr : z.ptr = y.ptr := Option.some.inj (hzp.symm.trans hp)
    rw [← himsi, List.inj_on_of_nodup_map h.subscrPtrs hz hy hptr]
  · intro himsi
    have ht : s.pdu.imsi.type = .imsi := himsi ▸ hd.types y hy
    obtain ⟨z, hz, hzp, hzi⟩ := hbound ht
    have hnd : (a.subscrs.map Subscr.imsi).Nodup := by
      refine List.pairwise_map.mpr (hd.imsis.imp_of_mem ?_)
      intro u v hu hv huv heq
      exact huv ((hid u.imsi v.imsi (hd.types u hu) (hd.types v hv)).mpr heq)
    rw [hzp, List.inj_on_of_nodup_map hnd hz hy (hzi.trans himsi)]

theorem world_bindings (hid : L.ImsiCmpEq) (h : a.WF) (hd : a.Distinct L) (hn : a.Named) :
    a.world.Bindings where
  unbound := by
    intro x hx q hq hreq
    obtain ⟨s, hs, rfl⟩ := List.mem_map.mp hx
    obtain ⟨t, ht, rfl⟩ := List.mem_map.mp hq
    obtain rfl : s = t := List.inj_on_of_nodup_map h.reqs hs ht (Option.some.inj hreq)
    constructor
    · intro hnone htype
      obtain ⟨y, -, hp, -⟩ := (hn s hs).1 htype
      cases hnone.symm.trans hp
    · exact (hn s hs).2
  bound := by
    intro x hx q hq hreq y hy
    obtain ⟨s, hs, rfl⟩ := List.mem_map.mp hx
    obtain ⟨t, ht, rfl⟩ := List.mem_map.mp hq
    obtain ⟨z, hz, rfl⟩ := List.mem_map.mp hy
    obtain rfl : s = t := List.inj_on_of_nodup_map h.reqs hs ht (Option.some.inj hreq)
    exact hn.subscr_iff hid h hd hs hz
  listed := by
    intro imsi
    constructor
    · rintro ⟨y, hy, rfl⟩
      obtain ⟨z, hz, rfl⟩ := List.mem_map.mp hy
      obtain ⟨s, hs, hp⟩ := refs_pos_iff.mp (h.subscrUsed z hz)
      exact ⟨hd.types z hz, s.locReq, List.mem_map_of_mem hs, (hn.subscr_iff hid h hd hs hz).mp hp⟩
    · rintro ⟨htype, q, hq, rfl⟩
      obtain ⟨s, hs, rfl⟩ := List.mem_map.mp hq
      obtain ⟨y, hy, -, himsi⟩ := (hn s hs).1 htype
      exact ⟨y.smlcSubscr a.sessions, List.mem_map_of_mem hy, himsi⟩
  counted := by
    intro y hy
    obtain ⟨z, hz, rfl⟩ := List.mem_map.mp hy
    have hcount : refs a.sessions z.ptr
        = a.world.locReqs.countP fun q => q.req.imsi = (z.smlcSubscr a.sessions).imsi := by
      show _ = (a.sessions.map Session.locReq).countP _
      rw [List.countP_map]
      refine List.countP_congr fun s hs => ?_
      simp only [Function.comp_apply, decide_eq_true_eq]
      exact hn.subscr_iff hid h hd hs hz
    rw [← hcount]
    rfl

end Service

/-- In every state reached, the subscribers are those that the pending requests name, each with
one token for each of them, and a connection is bound to the one that its request names. -/
theorem bindings_exact (L : Libosmo) (hid : L.ImsiCmpEq) {w : World} (hw : ReachableWorld L w) :
    w.Bindings := by
  obtain ⟨scu, a, hreach, hwf, rfl⟩ := hw.service
  exact Service.world_bindings hid hwf (Service.reachable_distinct hreach)
    (Service.reachable_named hid hreach)

/-- One subscriber for two requests. -/
theorem bindings_exact_two :
    let w := Sample.after Sample.twoConns
    w.Bindings ∧ w.subscrs.list.length = 1 ∧ w.locReqs.length = 2 :=
  ⟨bindings_exact Sample.libosmo Sample.libosmo_imsiCmp (Sample.reachable (by decide +kernel)),
    by decide +kernel, by decide +kernel⟩

end OsmoSmlc
