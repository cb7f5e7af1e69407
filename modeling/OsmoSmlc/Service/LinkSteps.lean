import OsmoSmlc.Properties.ObjectGraph
import OsmoSmlc.Service.Endings
import OsmoSmlc.Service.Link

/-! What every event does on the interface to one peer: nothing, if it is for others, and
else what can be read off the interface itself. -/
namespace OsmoSmlc
open Osmo

variable {L : Libosmo} {addr : SccpAddr} {ids : ConnId → Bool}

namespace Effect

variable {io : Io} {scu : Bool} {cells : CellStore} {s : Session} {e f : Effect} {l : Link}

def shownTo (L : Libosmo) (addr : SccpAddr) (ids : ConnId → Bool) (e : Effect) : List Act :=
  e.acts.filterMap (Act.shownTo L addr ids)

@[simp] theorem shownTo_nil : nil.shownTo L addr ids = [] := rfl
@[simp] theorem shownTo_msgb : msgb.shownTo L addr ids = [] := rfl
@[simp] theorem shownTo_enc {pdu : BssapLePdu} : (enc pdu).shownTo L addr ids = [] := rfl
@[simp] theorem shownTo_request {c : ConnPtr} : (request c).shownTo L addr ids = [] := rfl

@[simp] theorem shownTo_append :
    (e ++ f).shownTo L addr ids = e.shownTo L addr ids ++ f.shownTo L addr ids :=
  List.filterMap_append

@[simp] theorem shownTo_act {a : Act} :
    (act a).shownTo L addr ids = (a.shownTo L addr ids).toList := by
  simp only [shownTo, acts_act, List.filterMap_cons, List.filterMap_nil]
  cases a.shownTo L addr ids <;> rfl

theorem shownTo_down {req : ScuReq} : (down io scu req).shownTo L addr ids
    = if req.shownTo L addr ids && scu then [.sapDown req 0 (io.sapDown req)] else [] := by
  unfold down
  cases scu with
  | false => simp [shownTo]
  | true => cases hreq : req.shownTo L addr ids <;> simp [shownTo, Act.shownTo, hreq]

/-- A message on a connection is shown to the peer that has its id. -/
theorem shownTo_sendCo {pdu : BssmapLePdu} (hscu : l.scu = scu) :
    (sendCo io scu s pdu).shownTo L addr ids
      = if ids s.connId then l.sendCo io s.connId pdu else [] := by
  unfold sendCo Link.sendCo Link.send
  rw [hscu]
  cases io.bssapLeEnc (.bssmapLe pdu) with
  | false => simp
  | true =>
    simp only [if_true, shownTo_append, shownTo_down, shownTo_enc, shownTo_msgb, shownTo_act]
    cases hid : ids s.connId <;> simp [Act.shownTo, ScuReq.shownTo, hid]

theorem shownTo_sendCl {called : SccpAddr} {pdu : BssmapLePdu} (hscu : l.scu = scu) :
    (sendCl io scu called pdu).shownTo L addr ids
      = if L.sccpAddrRiCmp addr called = 0 then l.sendCl io called pdu else [] := by
  unfold sendCl Link.sendCl Link.send
  rw [hscu]
  cases io.bssapLeEnc (.bssmapLe pdu) with
  | false => simp
  | true =>
    simp only [if_true, shownTo_append, shownTo_down, shownTo_enc, shownTo_msgb]
    by_cases hc : L.sccpAddrRiCmp addr called = 0
    · simp [ScuReq.shownTo, hc]
    · simp [ScuReq.shownTo, hc]

theorem shownTo_gotTa {k : CellId} {ta : UInt8} (hscu : l.scu = scu) (hcells : l.cells = cells) :
    (gotTa L io scu cells s k ta).shownTo L addr ids
      = if ids s.connId then l.gotTa L io s.connId k ta else [] := by
  unfold gotTa Link.gotTa failed Link.failed
  rw [hcells]
  cases Net.estimate L cells k ta with
  | none => exact shownTo_sendCo hscu
  | some raw =>
    dsimp only
    split
    · exact shownTo_sendCo hscu
    · rw [shownTo_append, shownTo_enc, List.nil_append]
      exact shownTo_sendCo hscu

theorem shownTo_answer {k : Ending} (hscu : l.scu = scu) (hcells : l.cells = cells) :
    (answer L io scu cells s k).shownTo L addr ids
      = if ids s.connId then l.answer L io s.connId s.pdu k else [] := by
  cases k with
  | locAbort =>
    rw [Link.answer, ite_self]
    rfl
  | ta cellId ta => exact shownTo_gotTa hscu hcells
  | failure cause => exact shownTo_sendCo hscu

theorem shownTo_ended : (ended s).shownTo L addr ids
    = if ids s.connId then [.disconn s.connId] else [] := by
  unfold ended
  cases hid : ids s.connId <;> simp [Act.shownTo, hid]

/-- Connections are discarded in silence. -/
theorem shownTo_discardAll {p : PeerPtr} (ss : List Session) :
    (discardAll p ss).shownTo L addr ids = [] := by
  induction ss with
  | nil => rfl
  | cons s ss ih =>
    rw [discardAll, shownTo_append, ih]
    rfl

end Effect

namespace Service

variable {io : Io} {a a' b : Service} {s t : Session} {connId : ConnId} {m : Msg}
  {calling : SccpAddr} {p : PeerPtr} {x : LbPeer} {st : LbPeerState} {n : Net} {i : LbInput}

section Sessions

/-- Only some parts of a service make up the interface. -/
theorem link_congr (hscu : a'.net.scu = a.net.scu) (hcells : a'.cellLocations = a.cellLocations)
    (hpeers : a'.lbPeers = a.lbPeers) (hs : a'.sessions = a.sessions) :
    a'.link L addr ids = a.link L addr ids := by
  unfold link
  rw [hscu, hcells, hpeers, hs]

theorem link_find (hid : ids connId = true) :
    (a.link L addr ids).requests.find? (fun q => q.1 = connId)
      = (a.sessions.find? fun s => s.connId = connId).map Session.request := by
  show ((a.sessions.filter _).map Session.request).find? _ = _
  rw [List.find?_map, List.find?_filter]
  congr 2
  funext s
  by_cases hs : s.connId = connId
  · simp [Session.request, hs, hid]
  · simp [Session.request, hs]

theorem link_any (hid : ids connId = true) :
    (a.link L addr ids).requests.any (fun q => q.1 = connId)
      = a.sessions.any fun s => s.connId = connId := by
  rw [Bool.eq_iff_iff, List.any_eq_true, List.any_eq_true, ← List.find?_isSome,
    ← List.find?_isSome, link_find hid, Option.isSome_map]

/-- A session is told from the others by its connection id. -/
theorem remove_eq (h : a.WF) (hs : s ∈ a.sessions) :
    KeyedList.remove Session.conn a.sessions s.conn
      = a.sessions.filter fun t => t.connId ≠ s.connId := by
  refine List.filter_congr fun t ht => ?_
  refine decide_eq_decide.mpr (not_congr ⟨fun heq => ?_, fun heq => ?_⟩)
  · exact congrArg Session.connId (List.inj_on_of_nodup_map h.conns ht hs heq)
  · exact congrArg Session.conn (List.inj_on_of_nodup_map h.connIds ht hs heq)

theorem link_finish {k : Ending} (h : a.WF) (hs : s ∈ a.sessions) :
    (a.finish L io s k).link L addr ids = (a.link L addr ids).without s.connId := by
  have hscu : (a.finish L io s k).net.scu = a.net.scu := finish_does.scu
  have hreq : (((a.finish L io s k).sessions.filter fun t => ids t.connId).map Session.request)
      = (a.link L addr ids).requests.filter fun q => q.1 ≠ s.connId := by
    show ((KeyedList.remove Session.conn a.sessions s.conn).filter _).map _
      = ((a.sessions.filter _).map Session.request).filter _
    rw [remove_eq h hs, List.filter_map, List.filter_filter, List.filter_filter]
    congr 1
    refine List.filter_congr fun t _ => ?_
    exact Bool.and_comm _ _
  unfold Link.without
  rw [← hreq]
  unfold link
  rw [hscu]
  rfl

theorem link_without_other (hid : ids connId = false) :
    (a.link L addr ids).without connId = a.link L addr ids := by
  have hall : (a.link L addr ids).requests.filter (fun q => q.1 ≠ connId)
      = (a.link L addr ids).requests := by
    refine List.filter_eq_self.mpr fun q hq => ?_
    obtain ⟨s, hs, rfl⟩ := List.mem_map.mp hq
    have hsid : ids s.connId = true := (List.mem_filter.mp hs).2
    refine decide_eq_true fun heq => ?_
    have heq' : s.connId = connId := heq
    rw [heq', hid] at hsid
    cases hsid
  unfold Link.without
  rw [hall]

theorem finishEffect_shownTo {k : Ending} : (a.finishEffect L io s k).shownTo L addr ids
    = if ids s.connId then
        (a.link L addr ids).answer L io s.connId s.pdu k ++ [.disconn s.connId]
      else [] := by
  have hans : (Effect.answer L io a.net.scu a.cellLocations s k).shownTo L addr ids
      = if ids s.connId then (a.link L addr ids).answer L io s.connId s.pdu k else [] :=
    Effect.shownTo_answer rfl rfl
  rw [finishEffect, Effect.shownTo_append, Effect.shownTo_ended, hans]
  split
  · rfl
  · rfl

/-- A session of the peer ends. -/
theorem finish_own {k : Ending} (h : a.WF) (hs : s ∈ a.sessions) (hid : ids s.connId = true) :
    (a.link L addr ids).finish L io s.connId k
      = ((a.finish L io s k).link L addr ids, (a.finishEffect L io s k).shownTo L addr ids) := by
  unfold Link.finish
  rw [link_find hid, find_connId h hs, link_finish h hs, finishEffect_shownTo, if_pos hid]
  rfl

theorem finish_other {k : Ending} (h : a.WF) (hs : s ∈ a.sessions) (hid : ids s.connId = false) :
    (a.finish L io s k).link L addr ids = a.link L addr ids ∧
    (a.finishEffect L io s k).shownTo L addr ids = [] := by
  rw [link_finish h hs, link_without_other hid, finishEffect_shownTo, hid]
  exact ⟨rfl, rfl⟩

theorem data_own (h : a.WF) (hid : ids connId = true) :
    (a.link L addr ids).data L io connId m = ((a.data L io connId m).link L addr ids,
      (a.dataEffect L io connId m).shownTo L addr ids) := by
  cases hfind : a.sessions.find? fun s => s.connId = connId with
  | none =>
    rw [(data_none hfind).1, (data_none hfind).2]
    cases m with
    | ending k =>
      rw [Link.data, Link.finish, link_find hid, hfind]
      rfl
    | _ => rfl
  | some s =>
    rw [(data_some hfind).1, (data_some hfind).2, Effect.shownTo_append]
    have hs : s ∈ a.sessions := List.mem_of_find?_eq_some hfind
    have hsid : s.connId = connId := by simpa using List.find?_some hfind
    cases m with
    | ignored => rfl
    | request pdu => rfl
    | ending k =>
      let b := a.emit (.peerDispatch s.peer .ready .msgUpCo)
      have hf : (b.link L addr ids).finish L io s.connId k
          = ((b.finish L io s k).link L addr ids, (b.finishEffect L io s k).shownTo L addr ids) :=
        finish_own (h.emit _) hs (hsid ▸ hid)
      rw [hsid] at hf
      exact hf

theorem data_other (h : a.WF) (hid : ids connId = false) :
    (a.data L io connId m).link L addr ids = a.link L addr ids ∧
    (a.dataEffect L io connId m).shownTo L addr ids = [] := by
  cases hfind : a.sessions.find? fun s => s.connId = connId with
  | none =>
    rw [(data_none hfind).1, (data_none hfind).2]
    exact ⟨rfl, rfl⟩
  | some s =>
    rw [(data_some hfind).1, (data_some hfind).2, Effect.shownTo_append]
    have hs : s ∈ a.sessions := List.mem_of_find?_eq_some hfind
    have hsid : s.connId = connId := by simpa using List.find?_some hfind
    cases m with
    | ignored => exact ⟨rfl, rfl⟩
    | request pdu => exact ⟨rfl, rfl⟩
    | ending k =>
      let b := a.emit (.peerDispatch s.peer .ready .msgUpCo)
      have hf : (b.finish L io s k).link L addr ids = b.link L addr ids ∧
          (b.finishEffect L io s k).shownTo L addr ids = [] :=
        finish_other (h.emit _) hs (hsid ▸ hid)
      exact hf

end Sessions

/-! The peer of an event is the peer of the interface exactly if the addresses match. -/
section Peers

theorem link_setNet (hn : n.scu = a.net.scu) :
    (a.setNet n).link L addr ids = a.link L addr ids := link_congr hn rfl rfl rfl

theorem link_emit {act : Act} : (a.emit act).link L addr ids = a.link L addr ids := link_setNet rfl

theorem find_cmp (hri : L.RiCmpEquivalence) (hc : L.sccpAddrRiCmp addr calling = 0) :
    (fun x : LbPeer => decide (L.sccpAddrRiCmp calling x.peerAddr = 0))
      = fun x => decide (L.sccpAddrRiCmp addr x.peerAddr = 0) := by
  funext x
  refine decide_eq_decide.mpr ⟨fun h => ?_, fun h => ?_⟩
  · exact hri.trans _ _ _ hc h
  · exact hri.trans _ _ _ (hri.symm _ _ hc) h

/-- The address that a peer is found under matches its own. -/
theorem peer_cmp (hri : L.RiCmpEquivalence) :
    L.sccpAddrRiCmp calling (a.peer L calling).1.peerAddr = 0 := by
  unfold peer
  split
  · rename_i x hx
    simpa using List.find?_some hx
  · exact hri.refl calling

theorem peer_cmp_iff (hri : L.RiCmpEquivalence) :
    L.sccpAddrRiCmp addr (a.peer L calling).1.peerAddr = 0 ↔ L.sccpAddrRiCmp addr calling = 0 := by
  have hp : L.sccpAddrRiCmp calling (a.peer L calling).1.peerAddr = 0 := peer_cmp hri
  constructor
  · intro h
    exact hri.trans _ _ _ h (hri.symm _ _ hp)
  · intro h
    exact hri.trans _ _ _ h hp

theorem find_peer (hri : L.RiCmpEquivalence) (hc : L.sccpAddrRiCmp addr calling = 0) :
    (a.peer L calling).2.lbPeers.find? (fun x => L.sccpAddrRiCmp addr x.peerAddr = 0)
      = some (a.peer L calling).1 := by
  rw [← find_cmp hri hc]
  unfold peer
  split
  · rename_i x hx
    exact hx
  · exact List.find?_cons_of_pos (by simpa using hri.refl calling)

/-- The peer of an event as the interface has it, known before or not. -/
theorem peerOr_own (hri : L.RiCmpEquivalence) (hc : L.sccpAddrRiCmp addr calling = 0) :
    (a.link L addr ids).peerOr calling
      = ((a.peer L calling).1.fi.state, (a.peer L calling).1.peerAddr) := by
  have hcmp : (fun x : LbPeer => decide (L.sccpAddrRiCmp calling x.peerAddr = 0))
      = fun x => decide (L.sccpAddrRiCmp addr x.peerAddr = 0) := find_cmp hri hc
  unfold Link.peerOr link peer
  rw [← hcmp]
  cases a.lbPeers.find? fun x => L.sccpAddrRiCmp calling x.peerAddr = 0 with
  | some x => rfl
  | none => rfl

theorem link_peer_own (hri : L.RiCmpEquivalence) (hc : L.sccpAddrRiCmp addr calling = 0) :
    (a.peer L calling).2.link L addr ids = (a.link L addr ids).enter (a.peer L calling).1.fi.state
      (a.peer L calling).1.peerAddr := by
  unfold link Link.enter
  rw [find_peer hri hc, peer_net, peer_sessions, peer_frame]
  rfl

theorem link_peer_other (hc : L.sccpAddrRiCmp addr calling ≠ 0) :
    (a.peer L calling).2.link L addr ids = a.link L addr ids := by
  unfold peer
  split
  · rfl
  · unfold link
    rw [List.find?_cons_of_neg (by simpa using hc)]

/-- Entering a state changes what is found under an address in this state only. -/
theorem find_setPeer : (a.setPeer p st).lbPeers.find? (fun x => L.sccpAddrRiCmp addr x.peerAddr = 0)
    = (a.lbPeers.find? fun x => L.sccpAddrRiCmp addr x.peerAddr = 0).map fun x =>
      if x.ptr = p then { x with fi := ⟨st, false, lbPeerFsm.timeout st⟩ } else x := by
  show (a.lbPeers.map _).find? _ = _
  rw [List.find?_map]
  congr 2
  funext x
  show decide (L.sccpAddrRiCmp addr (if x.ptr = p then _ else x : LbPeer).peerAddr = 0) = _
  split
  · rfl
  · rfl

theorem link_setPeer_own
    (hx : a.lbPeers.find? (fun x => L.sccpAddrRiCmp addr x.peerAddr = 0) = some x) :
    (a.setPeer x.ptr st).link L addr ids = (a.link L addr ids).enter st x.peerAddr := by
  unfold link Link.enter
  rw [find_setPeer, hx, Option.map_some, if_pos rfl]
  rfl

theorem link_setPeer_other (h : a.WF) (hx : x ∈ a.lbPeers)
    (hc : L.sccpAddrRiCmp addr x.peerAddr ≠ 0) :
    (a.setPeer x.ptr st).link L addr ids = a.link L addr ids := by
  unfold link
  rw [find_setPeer]
  cases hfind : a.lbPeers.find? fun x => L.sccpAddrRiCmp addr x.peerAddr = 0 with
  | none => rfl
  | some y =>
    have hne : y.ptr ≠ x.ptr := by
      intro heq
      have hy : y ∈ a.lbPeers := List.mem_of_find?_eq_some hfind
      have hyx : y = x := List.inj_on_of_nodup_map h.peerPtrs hy hx heq
      exact hc (by simpa [hyx] using List.find?_some hfind)
    rw [Option.map_some, if_neg hne]
    rfl

theorem link_enter_own (hn : n.scu = a.net.scu)
    (hx : a.lbPeers.find? (fun x => L.sccpAddrRiCmp addr x.peerAddr = 0) = some x) :
    ((a.setPeer x.ptr st).setNet n).link L addr ids = (a.link L addr ids).enter st x.peerAddr := by
  have hnet : ((a.setPeer x.ptr st).setNet n).link L addr ids = (a.setPeer x.ptr st).link L addr ids :=
    link_congr hn rfl rfl rfl
  rw [hnet, link_setPeer_own hx]

theorem link_enter_other (hn : n.scu = a.net.scu) (h : a.WF) (hx : x ∈ a.lbPeers)
    (hc : L.sccpAddrRiCmp addr x.peerAddr ≠ 0) :
    ((a.setPeer x.ptr st).setNet n).link L addr ids = a.link L addr ids := by
  have hnet : ((a.setPeer x.ptr st).setNet n).link L addr ids = (a.setPeer x.ptr st).link L addr ids :=
    link_congr hn rfl rfl rfl
  rw [hnet, link_setPeer_other h hx hc]

theorem link_reset_own
    (hx : a.lbPeers.find? (fun x => L.sccpAddrRiCmp addr x.peerAddr = 0) = some x) :
    (a.reset io x).link L addr ids = ((a.link L addr ids).reset io x.peerAddr).1 := by
  unfold Service.reset
  rw [link_enter_own Net.sendReset_does.1.scu hx, Net.sendReset_does.2]
  rfl

theorem link_ackReset_own {msg : MsgbPtr}
    (hx : a.lbPeers.find? (fun x => L.sccpAddrRiCmp addr x.peerAddr = 0) = some x) :
    (a.ackReset io x msg).link L addr ids = (a.link L addr ids).enter
      (if Effect.accepted io a.net.scu x.peerAddr .resetAck then .ready else .waitRxReset)
      x.peerAddr := by
  unfold ackReset
  rw [link_enter_own Net.sendResetAck_does.1.scu hx, Net.sendResetAck_does.2]

theorem link_discardAll_own (hall : ∀ s ∈ a.sessions, ids s.connId = true → s.peer = p) :
    (a.discardAll p).link L addr ids = { a.link L addr ids with requests := [] } := by
  have hnone : (a.sessions.filter fun s => s.peer ≠ p).filter (fun s => ids s.connId) = [] := by
    refine List.filter_eq_nil_iff.mpr fun s hs hid => ?_
    obtain ⟨hmem, hne⟩ := List.mem_filter.mp hs
    exact of_decide_eq_true hne (hall s hmem hid)
  unfold link
  rw [discardAll_scu]
  show Link.mk _ _ _ (((a.sessions.filter fun s => s.peer ≠ p).filter _).map _) = _
  rw [hnone]
  rfl

theorem link_discardAll_other (hall : ∀ s ∈ a.sessions, ids s.connId = true → s.peer ≠ p) :
    (a.discardAll p).link L addr ids = a.link L addr ids := by
  have hsame : (a.sessions.filter fun s => s.peer ≠ p).filter (fun s => ids s.connId)
      = a.sessions.filter fun s => ids s.connId := by
    rw [List.filter_filter]
    refine List.filter_congr fun s hs => ?_
    cases hid : ids s.connId with
    | false => rfl
    | true => simpa using hall s hs hid
  unfold link
  rw [discardAll_scu]
  show Link.mk _ _ _ (((a.sessions.filter fun s => s.peer ≠ p).filter _).map _) = _
  rw [hsame]
  rfl

end Peers

/-- The ids of the peer are those of its sessions. -/
def Owned (L : Libosmo) (addr : SccpAddr) (ids : ConnId → Bool) (a : Service) : Prop :=
  ∀ s ∈ a.sessions, ids s.connId = true ↔ a.peerTable.find L addr = some s.peer

section Unitdata

variable {l2 : List UInt8} {msg : MsgbPtr}

theorem Owned.own (hri : L.RiCmpEquivalence) (h : a.WF) (ho : a.Owned L addr ids)
    (hc : L.sccpAddrRiCmp addr calling = 0) :
    ∀ s ∈ a.sessions, ids s.connId = true → s.peer = (a.peer L calling).1.ptr := by
  intro s hs hid
  have hfind : a.peerTable.find L calling = some s.peer :=
    (find_iff hri h ((ho s hs).mp hid)).mpr hc
  exact ((peer_ptr_iff h hs).mpr hfind).symm

theorem Owned.other (hri : L.RiCmpEquivalence) (h : a.WF) (ho : a.Owned L addr ids)
    (hc : L.sccpAddrRiCmp addr calling ≠ 0) :
    ∀ s ∈ a.sessions, ids s.connId = true → s.peer ≠ (a.peer L calling).1.ptr := by
  intro s hs hid heq
  have hfind : a.peerTable.find L calling = some s.peer := (peer_ptr_iff h hs).mp heq.symm
  exact hc ((find_iff hri h ((ho s hs).mp hid)).mp hfind)

theorem unitdata_own (hri : L.RiCmpEquivalence) (h : a.WF) (ho : a.Owned L addr ids)
    (hc : L.sccpAddrRiCmp addr calling = 0) :
    (a.link L addr ids).unitdata L io calling l2 = ((a.unitdata L io calling l2 msg).link L addr ids,
      (a.unitdataEffect L io calling l2).shownTo L addr ids) := by
  let x := (a.peer L calling).1
  let b := (a.peer L calling).2
  have hfind : b.lbPeers.find? (fun x => L.sccpAddrRiCmp addr x.peerAddr = 0) = some x :=
    find_peer hri hc
  have hlink : b.link L addr ids = (a.link L addr ids).enter x.fi.state x.peerAddr :=
    link_peer_own hri hc
  have hor : (a.link L addr ids).peerOr calling = (x.fi.state, x.peerAddr) := peerOr_own hri hc
  have hx : L.sccpAddrRiCmp addr x.peerAddr = 0 := (peer_cmp_iff hri).mpr hc
  unfold Link.unitdata unitdata unitdataEffect
  rw [hor]
  cases L.bssmapLeMsgt l2 with
  | reset =>
    let c := (b.emit (.peerDispatch x.ptr x.fi.state .msgUpCl)).emit
      (.peerDispatch x.ptr x.fi.state .rxReset)
    have hall : ∀ s ∈ c.sessions, ids s.connId = true → s.peer = x.ptr := by
      intro s hs
      exact ho.own hri h hc s (peer_sessions L a calling ▸ hs)
    have hscu : (c.discardAll x.ptr).net.scu = a.net.scu := by
      rw [discardAll_scu]
      show (a.peer L calling).2.net.scu = a.net.scu
      rw [peer_net]
    have hclink : c.link L addr ids = b.link L addr ids := link_congr rfl rfl rfl rfl
    have hshown : (Effect.sendCl io a.net.scu x.peerAddr .resetAck).shownTo L addr ids
        = (a.link L addr ids).sendCl io x.peerAddr .resetAck :=
      (Effect.shownTo_sendCl (l := a.link L addr ids) rfl).trans (if_pos hx)
    refine Prod.ext ?_ ?_
    · have hack : ((c.discardAll x.ptr).ackReset io x msg).link L addr ids
          = ((c.discardAll x.ptr).link L addr ids).enter _ x.peerAddr := link_ackReset_own hfind
      show _ = ((c.discardAll x.ptr).ackReset io x msg).link L addr ids
      rw [hack, link_discardAll_own hall, hscu, hclink, hlink]
      rfl
    · simp only [Effect.shownTo_append, Effect.shownTo_discardAll]
      exact hshown.symm
  | resetAck =>
    let c := (b.emit (.peerDispatch x.ptr x.fi.state .msgUpCl)).emit
      (.peerDispatch x.ptr x.fi.state .rxResetAck)
    have hclink : c.link L addr ids = (a.link L addr ids).enter x.fi.state x.peerAddr := hlink
    dsimp only
    by_cases hst : x.fi.state = .waitRxResetAck
    · have hset : (c.setPeer x.ptr .ready).link L addr ids = (c.link L addr ids).enter .ready x.peerAddr :=
        link_setPeer_own hfind
      rw [if_pos hst, if_pos hst, hset, hclink]
      rfl
    · rw [if_neg hst, if_neg hst, hclink]
      rfl
  | other msgt =>
    let c := b.emit (.peerDispatch x.ptr x.fi.state .msgUpCl)
    have hclink : c.link L addr ids = (a.link L addr ids).enter x.fi.state x.peerAddr := hlink
    dsimp only
    rw [hclink]
    rfl

theorem unitdata_other (hri : L.RiCmpEquivalence) (h : a.WF) (ho : a.Owned L addr ids)
    (hc : L.sccpAddrRiCmp addr calling ≠ 0) :
    (a.unitdata L io calling l2 msg).link L addr ids = a.link L addr ids ∧
    (a.unitdataEffect L io calling l2).shownTo L addr ids = [] := by
  let x := (a.peer L calling).1
  let b := (a.peer L calling).2
  have hb : b.WF := h.peer
  have hmem : x ∈ b.lbPeers := peer_mem
  have hlink : b.link L addr ids = a.link L addr ids := link_peer_other hc
  have hx : L.sccpAddrRiCmp addr x.peerAddr ≠ 0 := fun heq => hc ((peer_cmp_iff hri).mp heq)
  unfold unitdata unitdataEffect
  cases L.bssmapLeMsgt l2 with
  | reset =>
    let c := (b.emit (.peerDispatch x.ptr x.fi.state .msgUpCl)).emit
      (.peerDispatch x.ptr x.fi.state .rxReset)
    have hall : ∀ s ∈ c.sessions, ids s.connId = true → s.peer ≠ x.ptr := by
      intro s hs
      exact ho.other hri h hc s (peer_sessions L a calling ▸ hs)
    have hcwf : (c.discardAll x.ptr).WF := ((hb.emit _).emit _).discardAll x.ptr
    have hclink : c.link L addr ids = b.link L addr ids := link_congr rfl rfl rfl rfl
    have hshown : (Effect.sendCl io a.net.scu x.peerAddr .resetAck).shownTo L addr ids = [] :=
      (Effect.shownTo_sendCl (l := a.link L addr ids) rfl).trans (if_neg hx)
    constructor
    · show (((c.discardAll x.ptr).setPeer x.ptr _).setNet _).link L addr ids = _
      rw [link_enter_other Net.sendResetAck_does.1.scu hcwf hmem hx, link_discardAll_other hall,
        hclink, hlink]
    · simp only [Effect.shownTo_append, Effect.shownTo_discardAll]
      exact hshown
  | resetAck =>
    dsimp only
    refine ⟨?_, rfl⟩
    let c := (b.emit (.peerDispatch x.ptr x.fi.state .msgUpCl)).emit
      (.peerDispatch x.ptr x.fi.state .rxResetAck)
    have hclink : c.link L addr ids = a.link L addr ids := hlink
    have hset : (c.setPeer x.ptr .ready).link L addr ids = c.link L addr ids :=
      link_setPeer_other ((hb.emit _).emit _) hmem hx
    split
    · exact hset.trans hclink
    · exact hclink
  | other msgt => exact ⟨hlink, rfl⟩

end Unitdata

section Connect

variable {pdu : PerformLocReq} {l2 : List UInt8}

theorem openSession_cells :
    (a.openSession L io p connId pdu).cellLocations = a.cellLocations := by
  have hb : (a.bindRequest L pdu).2.cellLocations = a.cellLocations := by rw [bindRequest_frame]
  unfold openSession
  split
  · exact hb
  · exact hb

/-- A request that is answered at once leaves no session. -/
theorem openSession_sessions_answered {ta : UInt8} (hcb : ∀ s ∈ a.sessions, s.conn < a.next.conn)
    (hta : pdu.apdu = some (.taLayer3 ta)) :
    (a.openSession L io p connId pdu).sessions = a.sessions := by
  let s := a.newSession L p connId pdu
  rw [openSession_answered hta]
  show KeyedList.remove Session.conn (s :: a.sessions) s.conn = a.sessions
  exact KeyedList.remove_cons_self s fun t ht => Nat.ne_of_lt (hcb t ht)

theorem openSession_sessions_pending (hta : ∀ ta, pdu.apdu ≠ some (.taLayer3 ta)) :
    (a.openSession L io p connId pdu).sessions = a.newSession L p connId pdu :: a.sessions := by
  rw [openSession_pending hta]
  rfl

theorem openSession_own (hcb : ∀ s ∈ a.sessions, s.conn < a.next.conn) (hid : ids connId = true) :
    (a.link L addr ids).openConn L io connId (.request pdu)
      = .ok ((a.openSession L io p connId pdu).link L addr ids,
        (a.openSessionEffect L io p connId pdu).shownTo L addr ids) := by
  have hscu : (a.openSession L io p connId pdu).net.scu = a.net.scu := openSession_does.scu
  let s : Session := ⟨a.next.conn, connId, p, none, a.next.req, pdu⟩
  by_cases hta : ∃ ta, pdu.apdu = some (.taLayer3 ta)
  · obtain ⟨ta, hta⟩ := hta
    have hlink : (a.openSession L io p connId pdu).link L addr ids = a.link L addr ids :=
      link_congr hscu openSession_cells openSession_lbPeers (openSession_sessions_answered hcb hta)
    have hgot : (Effect.gotTa L io a.net.scu a.cellLocations s pdu.cellId ta).shownTo L addr ids
        = (a.link L addr ids).gotTa L io connId pdu.cellId ta :=
      (Effect.shownTo_gotTa (l := a.link L addr ids) rfl rfl).trans (if_pos hid)
    rw [hlink, openSessionEffect_answered hta]
    simp only [Link.openConn, hta, Effect.shownTo_append, Effect.shownTo_request]
    rw [hgot]
    simp [Act.shownTo, hid]
  · have hta' : ∀ ta, pdu.apdu ≠ some (.taLayer3 ta) := fun ta h => hta ⟨ta, h⟩
    have hask : (Effect.sendCo io a.net.scu s (.connOrientedInfo .taRequest)).shownTo L addr ids
        = (a.link L addr ids).sendCo io connId (.connOrientedInfo .taRequest) :=
      (Effect.shownTo_sendCo (l := a.link L addr ids) rfl).trans (if_pos hid)
    have hlink : (a.openSession L io p connId pdu).link L addr ids
        = { a.link L addr ids with requests := (connId, pdu) :: (a.link L addr ids).requests } := by
      unfold link
      rw [hscu, openSession_cells, openSession_lbPeers, openSession_sessions_pending hta',
        List.filter_cons_of_pos (by exact hid)]
      rfl
    rw [hlink, openSessionEffect_pending hta']
    simp only [Effect.shownTo_append, Effect.shownTo_request]
    rw [hask]
    unfold Link.openConn
    split
    · rename_i heq
      cases heq
    · rename_i heq
      cases heq
      split
      · rename_i ta heq
        exact absurd heq (hta' ta)
      · simp [Act.shownTo]
    · rename_i heq
      cases heq

theorem openSession_other (hcb : ∀ s ∈ a.sessions, s.conn < a.next.conn)
    (hid : ids connId = false) :
    (a.openSession L io p connId pdu).link L addr ids = a.link L addr ids ∧
    (a.openSessionEffect L io p connId pdu).shownTo L addr ids = [] := by
  have hscu : (a.openSession L io p connId pdu).net.scu = a.net.scu := openSession_does.scu
  let s : Session := ⟨a.next.conn, connId, p, none, a.next.req, pdu⟩
  have hsid : ¬ids s.connId = true := by simp [s, hid]
  by_cases hta : ∃ ta, pdu.apdu = some (.taLayer3 ta)
  · obtain ⟨ta, hta⟩ := hta
    have hgot : (Effect.gotTa L io a.net.scu a.cellLocations s pdu.cellId ta).shownTo L addr ids
        = [] := (Effect.shownTo_gotTa (l := a.link L addr ids) rfl rfl).trans (if_neg hsid)
    refine ⟨link_congr hscu openSession_cells openSession_lbPeers
      (openSession_sessions_answered hcb hta), ?_⟩
    rw [openSessionEffect_answered hta]
    simp only [Effect.shownTo_append, Effect.shownTo_request]
    rw [hgot]
    simp [Act.shownTo, hid]
  · have hta' : ∀ ta, pdu.apdu ≠ some (.taLayer3 ta) := fun ta h => hta ⟨ta, h⟩
    have hask : (Effect.sendCo io a.net.scu s (.connOrientedInfo .taRequest)).shownTo L addr ids
        = [] := (Effect.shownTo_sendCo (l := a.link L addr ids) rfl).trans (if_neg hsid)
    constructor
    · unfold link
      rw [hscu, openSession_cells, openSession_lbPeers, openSession_sessions_pending hta',
        List.filter_cons_of_neg (by exact hsid)]
    · rw [openSessionEffect_pending hta']
      simp only [Effect.shownTo_append, Effect.shownTo_request]
      rw [hask]
      rfl

/-- An N-CONNECT of the peer, after the peer was found. -/
theorem connectTo_own (io : Io) (m : Msg) (h : a.WF) (hid : ids connId = true)
    (hfind : a.lbPeers.find? (fun x => L.sccpAddrRiCmp addr x.peerAddr = 0) = some x) :
    (match x.fi.state with
      | .waitRxReset => .ok ((a.link L addr ids).reset io x.peerAddr)
      | .waitRxResetAck => .ok (((a.link L addr ids).reset io x.peerAddr).1,
          .disconn connId :: ((a.link L addr ids).reset io x.peerAddr).2)
      | .ready => (a.link L addr ids).openConn L io connId m
      | .discarding => .ok (a.link L addr ids, []))
    = (a.connectTo L io x connId m).map fun a' =>
      (a'.link L addr ids, (a.connectToEffect L io x connId m).shownTo L addr ids) := by
  have hx : L.sccpAddrRiCmp addr x.peerAddr = 0 := by simpa using List.find?_some hfind
  have hsend : (Effect.sendCl io a.net.scu x.peerAddr .reset).shownTo L addr ids
      = (a.link L addr ids).sendCl io x.peerAddr .reset :=
    (Effect.shownTo_sendCl (l := a.link L addr ids) rfl).trans (if_pos hx)
  unfold connectTo connectToEffect
  cases x.fi.state with
  | waitRxReset =>
    have hlink : (a.reset io x).link L addr ids = ((a.link L addr ids).reset io x.peerAddr).1 :=
      link_reset_own hfind
    show _ = Except.ok ((a.reset io x).link L addr ids, _)
    rw [hlink, hsend]
    rfl
  | waitRxResetAck =>
    let b := a.emit (.disconn connId)
    have hlink : (b.reset io x).link L addr ids = ((b.link L addr ids).reset io x.peerAddr).1 :=
      link_reset_own hfind
    show _ = Except.ok ((b.reset io x).link L addr ids, _)
    rw [hlink, Effect.shownTo_append, hsend, link_emit]
    simp [Act.shownTo, hid]
    rfl
  | discarding => rfl
  | ready =>
    cases m with
    | ignored =>
      show Except.ok _ = Except.ok _
      congr 2
      simp [openConnEffect, Act.shownTo, hid]
    | request pdu => exact openSession_own h.connBound hid
    | ending k => rfl

theorem connectTo_other (h : a.WF) (hid : ids connId = false) (hmem : x ∈ a.lbPeers)
    (hx : L.sccpAddrRiCmp addr x.peerAddr ≠ 0) (ho : a.connectTo L io x connId m = .ok a') :
    a'.link L addr ids = a.link L addr ids ∧
    (a.connectToEffect L io x connId m).shownTo L addr ids = [] := by
  have hsend : (Effect.sendCl io a.net.scu x.peerAddr .reset).shownTo L addr ids = [] :=
    (Effect.shownTo_sendCl (l := a.link L addr ids) rfl).trans (if_neg hx)
  unfold connectTo at ho
  unfold connectToEffect
  cases hst : x.fi.state with
  | waitRxReset =>
    rw [hst] at ho
    cases ho
    exact ⟨link_enter_other Net.sendReset_does.1.scu h hmem hx, hsend⟩
  | waitRxResetAck =>
    rw [hst] at ho
    cases ho
    let b := a.emit (.disconn connId)
    have hlink : (b.reset io x).link L addr ids = b.link L addr ids :=
      link_enter_other Net.sendReset_does.1.scu (h.emit _) hmem hx
    refine ⟨hlink, ?_⟩
    dsimp only
    rw [Effect.shownTo_append, hsend]
    simp [Act.shownTo, hid]
  | discarding =>
    rw [hst] at ho
    cases ho
    exact ⟨rfl, rfl⟩
  | ready =>
    rw [hst] at ho
    cases m with
    | ignored =>
      cases ho
      refine ⟨rfl, ?_⟩
      simp [openConnEffect, Act.shownTo, hid]
    | request pdu =>
      cases ho
      exact openSession_other h.connBound hid
    | ending k => cases ho

/-- Outside its first state, a peer is known. -/
theorem enter_peerOr {l : Link} {peerAddr : SccpAddr} (hor : l.peerOr calling = (st, peerAddr))
    (hst : st ≠ .waitRxReset) : l.enter st peerAddr = l := by
  obtain ⟨scu, cells, peer, requests⟩ := l
  cases peer with
  | none =>
    cases hor
    exact absurd rfl hst
  | some q =>
    cases hor
    rfl

theorem connect_own (hri : L.RiCmpEquivalence) (h : a.WF) (hid : ids connId = true)
    (hc : L.sccpAddrRiCmp addr calling = 0) :
    (a.link L addr ids).connect L io connId calling m
      = (a.connect L io connId calling m).map fun a' =>
        (a'.link L addr ids, (a.connectEffect L io connId calling m).shownTo L addr ids) := by
  unfold Link.connect connect connectEffect
  rw [link_any hid]
  split
  · show Except.ok _ = Except.ok _
    simp [link_emit, Act.shownTo, hid]
  · let x := (a.peer L calling).1
    let b := (a.peer L calling).2.emit (.peerDispatch x.ptr x.fi.state .msgUpCoInitial)
    have hb : b.WF := h.peer.emit _
    have hor : (a.link L addr ids).peerOr calling = (x.fi.state, x.peerAddr) := peerOr_own hri hc
    have hlink : b.link L addr ids = (a.link L addr ids).enter x.fi.state x.peerAddr :=
      link_peer_own hri hc
    have he : b.connectToEffect L io x connId m = a.connectToEffect L io x connId m :=
      (connectToEffect_setNet rfl).trans connectToEffect_peer
    have hto := connectTo_own io m hb hid (find_peer hri hc)
    rw [he] at hto
    have hup : (Effect.act (.peerDispatch x.ptr x.fi.state .msgUpCoInitial)
        ++ a.connectToEffect L io x connId m).shownTo L addr ids
        = (a.connectToEffect L io x connId m).shownTo L addr ids := rfl
    dsimp only
    rw [hup, ← hto, hor, hlink]
    dsimp only
    cases hst : x.fi.state with
    | waitRxReset => rfl
    | waitRxResetAck => rfl
    | ready => rw [enter_peerOr (hst ▸ hor) (by simp)]
    | discarding => rw [enter_peerOr (hst ▸ hor) (by simp)]

theorem connect_other (hri : L.RiCmpEquivalence) (h : a.WF) (hid : ids connId = false)
    (hc : L.sccpAddrRiCmp addr calling ≠ 0) (ho : a.connect L io connId calling m = .ok a') :
    a'.link L addr ids = a.link L addr ids ∧
    (a.connectEffect L io connId calling m).shownTo L addr ids = [] := by
  unfold connect at ho
  unfold connectEffect
  split at ho
  · rename_i hany
    cases ho
    rw [if_pos hany]
    refine ⟨link_emit, ?_⟩
    simp [Act.shownTo, hid]
  · rename_i hany
    let x := (a.peer L calling).1
    let b := (a.peer L calling).2.emit (.peerDispatch x.ptr x.fi.state .msgUpCoInitial)
    have hb : b.WF := h.peer.emit _
    have hx : L.sccpAddrRiCmp addr x.peerAddr ≠ 0 := fun heq => hc ((peer_cmp_iff hri).mp heq)
    have hlink : b.link L addr ids = a.link L addr ids := link_peer_other hc
    have he : b.connectToEffect L io x connId m = a.connectToEffect L io x connId m :=
      (connectToEffect_setNet rfl).trans connectToEffect_peer
    obtain ⟨hto, hshown⟩ := connectTo_other hb hid peer_mem hx ho
    rw [he] at hshown
    rw [if_neg hany]
    exact ⟨hto.trans hlink, hshown⟩

end Connect

/-! One event, for the peer or for others. -/
section Step

/-- The event of the service, if there is what it is named by. -/
def event? (L : Libosmo) (a : Service) : LbEvent → Option Event
  | .scu prim => some (.scu prim)
  | .locReqTimer connId =>
      (a.sessions.find? fun s => s.connId = connId).map fun s => .locReqTimer s.req
  | .lbPeerTimer addr =>
      (a.lbPeers.find? fun x => L.sccpAddrRiCmp addr x.peerAddr = 0).map fun x => .lbPeerTimer x.ptr
  | .vty cmd => some (.vty cmd)

theorem event?_world {ev : LbEvent} : a.world.event? L ev = a.event? L ev := by
  cases ev with
  | locReqTimer connId =>
    have hconn : a.world.connById connId
        = (a.sessions.find? fun s => s.connId = connId).map Session.lbConn := List.find?_map
    unfold World.event? event?
    dsimp only
    rw [hconn]
    cases a.sessions.find? fun s => s.connId = connId with
    | none => rfl
    | some s => rfl
  | _ => rfl

section Prim

variable {prim : ScuInd} {msg : MsgbPtr}

theorem rxPrim_own (hri : L.RiCmpEquivalence) (h : a.WF) (ho : a.Owned L addr ids)
    (hr : LbEvent.Respects L addr ids (.scu prim))
    (hc : LbEvent.concerns L addr ids (.scu prim) = true) :
    (a.link L addr ids).rxPrim L io prim = (a.rxPrim L io msg prim).map fun a' =>
      (a'.link L addr ids, (a.rxPrimEffect L io prim).shownTo L addr ids) := by
  cases prim with
  | nConnect connId calling l2 =>
    have hcmp : L.sccpAddrRiCmp addr calling = 0 := of_decide_eq_true hc
    have hid : ids connId = true := hr.trans hc
    simp only [Link.rxPrim, rxPrim, rxPrimEffect]
    split
    · rfl
    · let b := a.emit (.connResp connId)
      have hcon : (b.link L addr ids).connect L io connId calling (L.msg l2) = _ :=
        connect_own hri (h.emit _) hid hcmp
      have he : b.connectEffect L io connId calling (L.msg l2)
          = a.connectEffect L io connId calling (L.msg l2) := connectEffect_setNet rfl
      have hshown : (Effect.act (.connResp connId)
          ++ a.connectEffect L io connId calling (L.msg l2)).shownTo L addr ids
          = .connResp connId :: (a.connectEffect L io connId calling (L.msg l2)).shownTo L addr ids := by
        simp [Act.shownTo, hid]
      rw [link_emit, he] at hcon
      rw [hcon, hshown]
      cases b.connect L io connId calling (L.msg l2) with
      | ok a' => rfl
      | error e => rfl
  | nData connId l2 =>
    show Except.ok _ = Except.ok _
    rw [data_own h hc]
    rfl
  | nDisconnect connId l2 =>
    have hid : ids connId = true := hc
    simp only [Link.rxPrim, rxPrim, rxPrimEffect, Effect.shownTo_append, Effect.shownTo_act,
      Act.shownTo, hid, if_true]
    split
    · rw [data_own h hid]
      rfl
    · rfl
  | nUnitdata calling l2 =>
    have hcmp : L.sccpAddrRiCmp addr calling = 0 := of_decide_eq_true hc
    show Except.ok _ = Except.ok _
    rw [unitdata_own hri h ho hcmp]
    rfl
  | unsupported l2 => cases hc

theorem rxPrim_other (hri : L.RiCmpEquivalence) (h : a.WF) (ho : a.Owned L addr ids)
    (hr : LbEvent.Respects L addr ids (.scu prim))
    (hc : LbEvent.concerns L addr ids (.scu prim) = false)
    (hs : a.rxPrim L io msg prim = .ok a') :
    a'.link L addr ids = a.link L addr ids ∧ (a.rxPrimEffect L io prim).shownTo L addr ids = [] := by
  cases prim with
  | nConnect connId calling l2 =>
    have hcmp : L.sccpAddrRiCmp addr calling ≠ 0 := of_decide_eq_false hc
    have hid : ids connId = false := hr.trans hc
    simp only [rxPrim, rxPrimEffect] at hs ⊢
    split at hs
    · rename_i hl
      cases hs
      rw [if_pos hl]
      exact ⟨rfl, rfl⟩
    · rename_i hl
      let b := a.emit (.connResp connId)
      have he : b.connectEffect L io connId calling (L.msg l2)
          = a.connectEffect L io connId calling (L.msg l2) := connectEffect_setNet rfl
      obtain ⟨hlink, hshown⟩ := connect_other hri (h.emit _ : b.WF) hid hcmp hs
      rw [he] at hshown
      rw [if_neg hl, Effect.shownTo_append, hshown]
      refine ⟨hlink.trans link_emit, ?_⟩
      simp [Act.shownTo, hid]
  | nData connId l2 =>
    cases hs
    exact data_other h hc
  | nDisconnect connId l2 =>
    have hid : ids connId = false := hc
    cases hs
    simp only [rxPrimEffect, Effect.shownTo_append, Effect.shownTo_act, Act.shownTo, hid]
    split
    · have hdata : (a.data L io connId (L.msg l2)).link L addr ids = a.link L addr ids ∧
          (a.dataEffect L io connId (L.msg l2)).shownTo L addr ids = [] := data_other h hid
      rw [hdata.2]
      exact ⟨link_emit.trans hdata.1, rfl⟩
    · exact ⟨link_emit, rfl⟩
  | nUnitdata calling l2 =>
    cases hs
    exact unitdata_other hri h ho (of_decide_eq_false hc)
  | unsupported l2 =>
    cases hs
    exact ⟨rfl, rfl⟩

end Prim

/-- The effect of an event on the interface is read off the interface. -/
theorem step_own {ev : Event} (hri : L.RiCmpEquivalence) (h : a.WF) (ho : a.Owned L addr ids)
    (hr : i.ev.Respects L addr ids) (hc : i.ev.concerns L addr ids = true)
    (he : a.event? L i.ev = some ev) :
    (a.link L addr ids).handle L i.io i.ev = (a.step L ⟨ev, i.io⟩).map fun a' =>
      (a'.link L addr ids, (a.effect L ⟨ev, i.io⟩).shownTo L addr ids) := by
  obtain ⟨lbEv, io⟩ := i
  cases lbEv with
  | scu prim =>
    cases he
    let b := a.setNet a.net.takeMsgb
    have hb : b.link L addr ids = a.link L addr ids := link_setNet rfl
    have hprim : (b.link L addr ids).rxPrim L io prim
        = (b.rxPrim L io a.net.nextMsgb prim).map fun a' =>
          (a'.link L addr ids, (b.rxPrimEffect L io prim).shownTo L addr ids) :=
      rxPrim_own hri (h.setNet _) ho hr hc
    have hscu : a.net.takeMsgb.scu = a.net.scu := rfl
    have heff : b.rxPrimEffect L io prim = a.rxPrimEffect L io prim := rxPrimEffect_setNet hscu
    rw [hb, heff] at hprim
    show (a.link L addr ids).rxPrim L io prim = _
    rw [hprim]
    simp only [step, handle, effect, Effect.shownTo_append, Effect.shownTo_msgb, List.nil_append]
    cases b.rxPrim L io a.net.nextMsgb prim with
    | ok a' => rfl
    | error e => rfl
  | locReqTimer connId =>
    have hev : (a.sessions.find? fun s => s.connId = connId).map
        (fun s => Event.locReqTimer s.req) = some ev := he
    obtain ⟨s, hs, rfl⟩ := Option.map_eq_some_iff.mp hev
    have hmem : s ∈ a.sessions := List.mem_of_find?_eq_some hs
    have hid : s.connId = connId := by simpa using List.find?_some hs
    have hreq := find_req h hmem
    show Except.ok ((a.link L addr ids).finish L io connId _)
      = Except.ok ((a.locReqTimeout L io s.req).link L addr ids,
        (a.locReqTimeoutEffect L io s.req).shownTo L addr ids)
    rw [(locReqTimeout_some hreq).1, (locReqTimeout_some hreq).2, ← hid,
      finish_own h hmem (hid ▸ hc)]
  | lbPeerTimer calling =>
    have hcmp : L.sccpAddrRiCmp addr calling = 0 := of_decide_eq_true hc
    have hev : (a.lbPeers.find? fun x => L.sccpAddrRiCmp calling x.peerAddr = 0).map
        (fun x => Event.lbPeerTimer x.ptr) = some ev := he
    obtain ⟨x, hx, rfl⟩ := Option.map_eq_some_iff.mp hev
    rw [find_cmp hri hcmp] at hx
    have hmem : x ∈ a.lbPeers := List.mem_of_find?_eq_some hx
    have hlook : KeyedList.lookup LbPeer.ptr a.lbPeers x.ptr = some x :=
      KeyedList.lookup_of_mem h.peerPtrs hmem
    have hpeer : (a.link L addr ids).peer = some (x.fi.state, x.peerAddr) := by
      unfold link
      rw [hx]
      rfl
    have htimer : x.fi.timer = lbPeerFsm.timeout x.fi.state := congrArg FsmInst.timer (h.peerFi x hmem)
    show Except.ok ((a.link L addr ids).lbPeerTimeout, _)
      = Except.ok ((a.lbPeerTimeout x.ptr).link L addr ids, _)
    simp only [Link.lbPeerTimeout, lbPeerTimeout, hlook, hpeer, htimer]
    cases hst : x.fi.state with
    | waitRxResetAck =>
      have hset : (a.setPeer x.ptr .waitRxReset).link L addr ids
          = (a.link L addr ids).enter .waitRxReset x.peerAddr := link_setPeer_own hx
      exact congrArg Except.ok (Prod.ext hset.symm rfl)
    | discarding => exact absurd hst (h.peerState x hmem)
    | waitRxReset => rfl
    | ready => rfl
  | vty cmd =>
    cases he
    rfl

/-- The events for others do not show on the interface. -/
theorem step_other {ev : Event} (hri : L.RiCmpEquivalence) (h : a.WF) (ho : a.Owned L addr ids)
    (hr : i.ev.Respects L addr ids) (hc : i.ev.concerns L addr ids = false)
    (he : a.event? L i.ev = some ev) (hs : a.step L ⟨ev, i.io⟩ = .ok a') :
    a'.link L addr ids = a.link L addr ids ∧
    (a.effect L ⟨ev, i.io⟩).shownTo L addr ids = [] := by
  obtain ⟨lbEv, io⟩ := i
  cases lbEv with
  | scu prim =>
    cases he
    let b := a.setNet a.net.takeMsgb
    have hscu : a.net.takeMsgb.scu = a.net.scu := rfl
    have heff : b.rxPrimEffect L io prim = a.rxPrimEffect L io prim := rxPrimEffect_setNet hscu
    simp only [step, handle] at hs
    split at hs
    · rename_i c hprim
      cases hs
      obtain ⟨hlink, hshown⟩ := rxPrim_other hri (h.setNet _ : b.WF) ho hr hc hprim
      rw [heff] at hshown
      exact ⟨link_emit.trans hlink, hshown⟩
    · cases hs
  | locReqTimer connId =>
    have hev : (a.sessions.find? fun s => s.connId = connId).map
        (fun s => Event.locReqTimer s.req) = some ev := he
    obtain ⟨s, hfind, rfl⟩ := Option.map_eq_some_iff.mp hev
    have hmem : s ∈ a.sessions := List.mem_of_find?_eq_some hfind
    have hid : s.connId = connId := by simpa using List.find?_some hfind
    have hreq := find_req h hmem
    cases hs
    show (a.locReqTimeout L io s.req).link L addr ids = _ ∧
      (a.locReqTimeoutEffect L io s.req).shownTo L addr ids = _
    rw [(locReqTimeout_some hreq).1, (locReqTimeout_some hreq).2]
    exact finish_other h hmem (hid ▸ hc)
  | lbPeerTimer calling =>
    have hcmp : L.sccpAddrRiCmp addr calling ≠ 0 := of_decide_eq_false hc
    have hev : (a.lbPeers.find? fun x => L.sccpAddrRiCmp calling x.peerAddr = 0).map
        (fun x => Event.lbPeerTimer x.ptr) = some ev := he
    obtain ⟨x, hx, rfl⟩ := Option.map_eq_some_iff.mp hev
    have hmem : x ∈ a.lbPeers := List.mem_of_find?_eq_some hx
    have hne : L.sccpAddrRiCmp addr x.peerAddr ≠ 0 := by
      intro heq
      have hx' : L.sccpAddrRiCmp calling x.peerAddr = 0 := by simpa using List.find?_some hx
      exact hcmp (hri.trans _ _ _ heq (hri.symm _ _ hx'))
    cases hs
    refine ⟨?_, rfl⟩
    show (a.lbPeerTimeout x.ptr).link L addr ids = _
    unfold lbPeerTimeout
    rw [KeyedList.lookup_of_mem h.peerPtrs hmem]
    dsimp only
    split
    · exact link_setPeer_other h hmem hne
    · rfl
  | vty cmd => cases hc

/-- A timer of what does not exist does nothing on the interface, too. -/
theorem handle_none (hri : L.RiCmpEquivalence) (hc : i.ev.concerns L addr ids = true)
    (he : a.event? L i.ev = none) :
    (a.link L addr ids).handle L i.io i.ev = .ok (a.link L addr ids, []) := by
  obtain ⟨lbEv, io⟩ := i
  cases lbEv with
  | scu prim => cases he
  | vty cmd => cases he
  | locReqTimer connId =>
    have hnone : (a.link L addr ids).requests.find? (fun q => q.1 = connId) = none := by
      rw [link_find hc, Option.map_eq_none_iff.mp he]
      rfl
    simp only [Link.handle, Link.finish, hnone]
  | lbPeerTimer calling =>
    have hcmp : L.sccpAddrRiCmp addr calling = 0 := of_decide_eq_true hc
    have hfind := Option.map_eq_none_iff.mp he
    rw [find_cmp hri hcmp] at hfind
    have hpeer : (a.link L addr ids).peer = none := by
      unfold link
      rw [hfind]
      rfl
    simp only [Link.handle, Link.lbPeerTimeout, hpeer]

/-- A session that the peer of an N-CONNECT gets has an id of this peer. -/
theorem connect_owned {l2 : List UInt8} {io : Io} (hri : L.RiCmpEquivalence) (h : a.WF)
    (hr : LbEvent.Respects L addr ids (.scu (.nConnect connId calling l2)))
    (hs : a.step L ⟨.scu (.nConnect connId calling l2), io⟩ = .ok a') (ht : t ∈ a'.sessions)
    (hnew : t ∉ a.sessions) :
    ids t.connId = true ↔ a'.peerTable.find L addr = some t.peer := by
  by_cases hno : l2 = [] ∨ a.world.connById connId ≠ none
  · rw [(step_connect_refused hno hs).1] at ht
    exact absurd ht hnew
  · rw [not_or, not_not] at hno
    obtain ⟨acts, -, hout⟩ := step_connect h hno.1 hno.2 hs
    have hsame : ∀ {l : List Session}, a'.sessions = l → l = a.sessions → False := by
      rintro l hl rfl
      exact hnew (hl ▸ ht)
    cases hout with
    | refused hx hss => exact (hsame hss rfl).elim
    | disconnected hx hss => exact (hsame hss rfl).elim
    | ignored hx hm hss => exact (hsame hss rfl).elim
    | answered s ta hx hm hc hid hss => exact (hsame hss rfl).elim
    | opened s hx hm hc hid hp hsub hss hbind =>
      rw [hss] at ht
      obtain rfl : t = s := (List.mem_cons.mp ht).resolve_right hnew
      obtain ⟨⟨n, n', rfl⟩, -⟩ := step_connect_request hno.1 hno.2 hx hm hs
      have hpeers : (((a.peer L calling).2.setNet n).openSession L io (a.peer L calling).1.ptr connId
          t.pdu).lbPeers = (a.peer L calling).2.lbPeers := openSession_lbPeers
      have hfind : ((((a.peer L calling).2.setNet n).openSession L io (a.peer L calling).1.ptr connId
          t.pdu).setNet n').peerTable.find L calling = some t.peer := by
        rw [← peerTable_find, hp]
        show (List.find? _ (((a.peer L calling).2.setNet n).openSession L io _ connId t.pdu).lbPeers).map _
          = _
        rw [hpeers, find_peer hri (hri.refl calling)]
        rfl
      have hids : ids connId = decide (L.sccpAddrRiCmp addr calling = 0) := hr
      rw [find_iff hri (step_wf h hs) hfind, hid, hids, decide_eq_true_iff]
      exact ⟨hri.symm addr calling, hri.symm calling addr⟩

theorem step_owned {ev : Event} (hri : L.RiCmpEquivalence) (h : a.WF) (ho : a.Owned L addr ids)
    (hr : i.ev.Respects L addr ids) (he : a.event? L i.ev = some ev)
    (hs : a.step L ⟨ev, i.io⟩ = .ok a') : a'.Owned L addr ids := by
  intro t ht
  by_cases hold : t ∈ a.sessions
  · obtain ⟨y, hy, hyp, -⟩ := h.peerReady t hold
    have hlt : t.peer < a.next.peer := hyp ▸ h.peerBound y hy
    rw [ho t hold]
    exact ⟨step_peerTable_find hri hs, step_peerTable_find_old hs hlt⟩
  · obtain ⟨calling, l2, rfl⟩ := ((step_turn h hs).mem ht).resolve_left hold
    obtain ⟨lbEv, io⟩ := i
    cases lbEv with
    | scu prim =>
      cases he
      exact connect_owned hri h hr hs ht hold
    | locReqTimer connId =>
      obtain ⟨s, -, heq⟩ := Option.map_eq_some_iff.mp he
      cases heq
    | lbPeerTimer addr =>
      obtain ⟨x, -, heq⟩ := Option.map_eq_some_iff.mp he
      cases heq
    | vty cmd => cases he

end Step

end Service
end OsmoSmlc
