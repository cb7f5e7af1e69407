import Mathlib.Data.List.Find
import OsmoSmlc.Properties.NoCrash
import OsmoSmlc.Properties.ObjectGraph
import OsmoSmlc.Service.Independent

/-! The process may also be told to give up a peer, or the request of a connection. No event
does that, and the objects are in order all the same. -/
namespace OsmoSmlc
open Osmo

/-- What can be asked of the process. -/
inductive Op where
  | event (i : Input)
  | peerTerm (p : PeerPtr)
  | locReqReset (c : ConnPtr) (io : Io)

def Op.perform (L : Libosmo) : Op → M Unit
  | .event i => handle L i.io i.ev
  | .peerTerm p => lbPeerTerm p
  | .locReqReset c io => smlcLocReqReset io c

def opStep (L : Libosmo) (w : World) (o : Op) : Except Crash World :=
  match o.perform L w with
  | .ok (_,w') => .ok w'.select
  | .error e => .error e

/-- Events that are survived, and operations on listed objects. -/
def Op.Valid (L : Libosmo) (w : World) : Op → Prop
  | .event i => ¬EndsNoRequest L w i.ev
  | .peerTerm p => ∃ x ∈ w.lbPeers, x.ptr = p
  | .locReqReset c _ => ∃ y ∈ w.lbConns, y.ptr = c

/-- What a connection shows that is discarded with its peer. -/
def LbConn.discarded (p : PeerPtr) (y : LbConn) : List Act :=
  .resetDiscard p y.smlcLocReq :: (y.smlcLocReq.toList.map .locReqCleanup ++ [.connFree y.ptr])

/-- The peer `x` was given up between two states: it is gone with its connections and their
requests, nothing was sent, and its addresses stand for no peer any more. -/
structure World.PeerTerm (L : Libosmo) (x : LbPeer) (w w' : World) : Prop where
  peers : w'.lbPeers = w.lbPeers.filter fun y => y.ptr ≠ x.ptr
  conns : w'.lbConns = w.lbConns.filter fun y => y.lbPeer ≠ some x.ptr
  reqs : w'.locReqs = w.locReqs.filter fun q => w'.lbConns.any fun y => y.smlcLocReq = some q.ptr
  acts : newActs w w' = (w.lbConns.filter fun y => y.lbPeer = some x.ptr).flatMap
    fun y => y.discarded x.ptr
  find : ∀ addr, w'.lbPeerFind L addr =
    if L.sccpAddrRiCmp addr x.peerAddr = 0 then none else w.lbPeerFind L addr
  cells : w'.cellLocations = w.cellLocations

section Shows

variable {io : Io} {w : World} {a : Service} {s : Session} {x : LbPeer}

/-- The peer ends with its sessions. -/
def Service.termPeer (p : PeerPtr) (a : Service) : Service :=
  { a.discardAll p with lbPeers := KeyedList.remove LbPeer.ptr a.lbPeers p }

theorem Service.WF.termPeer (h : a.WF) (p : PeerPtr) : (a.termPeer p).WF := by
  have hd : (a.discardAll p).WF := h.discardAll p
  have hmem : ∀ y ∈ KeyedList.remove LbPeer.ptr a.lbPeers p, y ∈ a.lbPeers :=
    fun y hy => (KeyedList.mem_remove.mp hy).1
  have hready : ∀ s ∈ (a.discardAll p).sessions,
      ∃ y ∈ KeyedList.remove LbPeer.ptr a.lbPeers p, y.ptr = s.peer ∧ y.fi.state = .ready := by
    intro s hs
    obtain ⟨y, hy, hys, hst⟩ := hd.peerReady s hs
    have hne : s.peer ≠ p := discardAll_peer s hs
    exact ⟨y, KeyedList.mem_remove.mpr ⟨hy, hys ▸ hne⟩, hys, hst⟩
  exact ⟨⟨h.peerPtrs.sublist (List.filter_sublist.map _), fun y hy => h.peerBound y (hmem y hy),
    fun y hy => h.peerFi y (hmem y hy), fun y hy => h.peerState y (hmem y hy), hd.conns,
    hd.connBound, hd.connIds, hd.reqs, hd.reqBound, hready, hd.subscrPtrs, hd.subscrBound,
    hd.subscrListed⟩, hd.subscrUsed⟩

theorem Service.Distinct.termPeer {L : Libosmo} (h : a.Distinct L) (p : PeerPtr) :
    (a.termPeer p).Distinct L := by
  have hd : (a.discardAll p).Distinct L := h.discardAll p
  exact ⟨h.addrs.sublist List.filter_sublist, hd.imsis, hd.types⟩

/-- A peer that is being terminated discards its connections and leaves the list. -/
theorem lbPeerTerm_shows (h : Shows w a) (hw : a.WF) (hx : x ∈ a.lbPeers) :
    ∃ w', lbPeerTerm x.ptr w = .ok ((), w') ∧ Shows w' (a.termPeer x.ptr) := by
  let g : LbPeer → LbPeer := fun y => { y with fi := ⟨x.fi.state, true, false⟩ }
  have hget : (lbPeerFi x.ptr).get w = some x.fi := by simp [lbPeerFi, h.lbPeer? hw hx]
  have ht : x.fi.terminating = false := by rw [hw.peerFi x hx]
  obtain ⟨w1, hd, h1⟩ := lbPeerDiscardAllConns_shows h hw x.ptr
  have hd' := (lbPeerDiscardAllConns_frame (p := x.ptr) (q := x.ptr) (f := g)).ok hd
  refine ⟨(w1.updPeer x.ptr g).delPeer x.ptr, ?_, ?_, h1.reqPtrs⟩
  · rw [lbPeerTerm, Fsm.term_live hget ht]
    exact (Prog.bind_ok hd').trans rfl
  · have hrem : KeyedList.remove LbPeer.ptr (KeyedList.update LbPeer.ptr w1.lbPeers x.ptr g) x.ptr
        = KeyedList.remove LbPeer.ptr a.lbPeers x.ptr := by
      have hptr : ∀ y, (g y).ptr = y.ptr := fun _ => rfl
      rw [KeyedList.remove_update hptr, h1.lbPeers]
      rfl
    show ({ w1.select with lbPeers := KeyedList.remove LbPeer.ptr _ x.ptr } : World) = _
    rw [h1.select]
    exact congrArg (fun l => { (a.discardAll x.ptr).world with lbPeers := l }) hrem

theorem smlcLocReqReset_shows (L : Libosmo) (io : Io) (h : Shows w a) (hw : a.WF)
    (hs : s ∈ a.sessions) : ∃ w', smlcLocReqReset io s.conn w = .ok ((), w') ∧
      Shows w' (a.finish L io s (.failure .systemFailure)) := by
  obtain ⟨w', hf, hsh⟩ := smlcLocReqFail_shows L io .systemFailure h hw hs
  exact ⟨w', (Prog.bind_ok (derefConn_ok (h.lbConn? hw hs))).trans hf, hsh⟩

end Shows

theorem opStep_ok {L : Libosmo} {w w' : World} {o : Op} (h : o.perform L w = .ok ((), w')) :
    opStep L w o = .ok w'.select := by
  unfold opStep
  rw [h]

namespace Service

variable {L : Libosmo} {io : Io} {a : Service} {s : Session} {x : LbPeer} {p : PeerPtr}

theorem opStep_event (h : a.WF) (i : Input) :
    opStep L a.world (.event i) = (a.step L i).map world := step_world L h i

theorem opStep_peerTerm (h : a.WF) (hx : x ∈ a.lbPeers) :
    opStep L a.world (.peerTerm x.ptr) = .ok (a.termPeer x.ptr).world := by
  obtain ⟨w', ht, hsh⟩ := lbPeerTerm_shows (world_shows h) h hx
  have hok : opStep L a.world (.peerTerm x.ptr) = .ok w'.select := opStep_ok ht
  rw [hok, hsh.select]

/-- A request is given up as if its T-12 had expired. -/
theorem opStep_locReqReset (h : a.WF) (hs : s ∈ a.sessions) :
    opStep L a.world (.locReqReset s.conn io) = OsmoSmlc.step L a.world ⟨.locReqTimer s.req, io⟩ := by
  obtain ⟨w', hf, hsh⟩ := smlcLocReqReset_shows L io (world_shows h) h hs
  have hok : opStep L a.world (.locReqReset s.conn io) = .ok w'.select := opStep_ok hf
  have htimer : a.step L ⟨.locReqTimer s.req, io⟩
      = .ok (a.finish L io s (.failure .systemFailure)) := by
    simp only [step, handle, locReqTimeout, find_req h hs]
  rw [step_world L h, htimer, hok, hsh.select]
  rfl

/-- A valid operation succeeds and keeps everything in order. -/
theorem opStep_total {o : Op} (h : a.WF) (hd : a.Distinct L) (ho : o.Valid L a.world) :
    ∃ b : Service, opStep L a.world o = .ok b.world ∧ b.WF ∧ b.Distinct L := by
  have hstep : ∀ {i : Input} {b : Service}, a.step L i = .ok b → b.WF ∧ b.Distinct L :=
    fun hs => ⟨step_wf h hs, step_distinct hd hs⟩
  cases o with
  | event i =>
    rw [opStep_event h]
    cases hs : a.step L i with
    | error e => exact absurd (step_error hs).1 ho
    | ok b => exact ⟨b, rfl, hstep hs⟩
  | peerTerm p =>
    obtain ⟨x, hx, rfl⟩ := ho
    exact ⟨a.termPeer x.ptr, opStep_peerTerm h hx, h.termPeer x.ptr, hd.termPeer x.ptr⟩
  | locReqReset c io =>
    obtain ⟨y, hy, rfl⟩ := ho
    obtain ⟨s, hs, rfl⟩ := List.mem_map.mp hy
    have htimer : a.step L ⟨.locReqTimer s.req, io⟩ = .ok (a.locReqTimeout L io s.req) := rfl
    refine ⟨a.locReqTimeout L io s.req, (opStep_locReqReset h hs).trans ?_, hstep htimer⟩
    rw [step_world L h, htimer]
    rfl

theorem log_discarded (ss : List Session) (n : Net) :
    (ss.foldl (Net.discarded p) n).log = n.log ++ ss.flatMap fun s => s.lbConn.discarded p := by
  induction ss generalizing n with
  | nil => simp
  | cons s ss ih =>
    rw [List.foldl_cons, ih, List.flatMap_cons, ← List.append_assoc]
    simp [Net.discarded, Net.emit, LbConn.discarded, Session.lbConn]

theorem termPeer_find (h : a.WF) (hx : x ∈ a.lbPeers) (hri : L.RiCmpEquivalence)
    (hd : a.Distinct L) (addr : SccpAddr) : (a.termPeer x.ptr).world.lbPeerFind L addr =
      if L.sccpAddrRiCmp addr x.peerAddr = 0 then none else a.world.lbPeerFind L addr := by
  have hsame : ∀ {y}, y ∈ a.lbPeers → y.ptr = x.ptr → y = x := fun hy heq =>
    List.inj_on_of_nodup_map h.peerPtrs hy hx heq
  show (a.lbPeers.filter _).find? _ = _
  rw [List.find?_filter]
  split
  · rename_i hc
    refine List.find?_eq_none.mpr fun y hy hfound => ?_
    obtain ⟨hne, hcy⟩ : y.ptr ≠ x.ptr ∧ L.sccpAddrRiCmp addr y.peerAddr = 0 := by simpa using hfound
    exact hne (hd.eq_of_cmp hri hy hx (hri.trans _ _ _ (hri.symm _ _ hcy) hc) ▸ rfl)
  · rename_i hc
    refine List.find?_congr fun y hy => ?_
    by_cases hcy : L.sccpAddrRiCmp addr y.peerAddr = 0
    · have hne : y.ptr ≠ x.ptr := by
        intro heq
        exact hc (hsame hy heq ▸ hcy)
      simp [hne, hcy]
    · simp [hcy]

/-- A request is kept if and only if a connection is left for it. -/
theorem termPeer_any (h : a.WF) (hs : s ∈ a.sessions) :
    ((a.termPeer p).world.lbConns.any fun y => y.smlcLocReq = some s.req) = true ↔ s.peer ≠ p := by
  rw [List.any_eq_true]
  constructor
  · rintro ⟨y, hy, heq⟩
    obtain ⟨t, ht, rfl⟩ := List.mem_map.mp hy
    obtain ⟨ht, hne⟩ := List.mem_filter.mp ht
    have hreq : t.req = s.req := Option.some.inj (of_decide_eq_true heq)
    have hts : t = s := List.inj_on_of_nodup_map h.reqs ht hs hreq
    exact hts ▸ of_decide_eq_true hne
  · intro hne
    have hkept : s ∈ (a.termPeer p).sessions := List.mem_filter.mpr ⟨hs, decide_eq_true hne⟩
    exact ⟨s.lbConn, List.mem_map_of_mem hkept, decide_eq_true rfl⟩

theorem world_peerTerm (hri : L.RiCmpEquivalence) (h : a.WF) (hd : a.Distinct L)
    (hx : x ∈ a.lbPeers) : a.world.PeerTerm L x (a.termPeer x.ptr).world where
  peers := rfl
  conns := by
    show (a.sessions.filter _).map Session.lbConn = (a.sessions.map Session.lbConn).filter _
    rw [List.filter_map]
    congr 1
    exact List.filter_congr fun s _ => by simp [Session.lbConn]
  reqs := by
    show (a.sessions.filter _).map Session.locReq = (a.sessions.map Session.locReq).filter _
    rw [List.filter_map]
    congr 1
    exact List.filter_congr fun s hs => Bool.eq_iff_iff.mpr
      (decide_eq_true_iff.trans (termPeer_any h hs).symm)
  acts := by
    have hlog : (a.termPeer x.ptr).world.net.log = a.world.net.log ++
        (a.sessions.filter fun s => s.peer = x.ptr).flatMap fun s => s.lbConn.discarded x.ptr :=
      log_discarded _ a.net
    rw [newActs_eq hlog]
    show _ = ((a.sessions.map Session.lbConn).filter _).flatMap _
    rw [List.filter_map, List.flatMap_map]
    congr 1
    exact List.filter_congr fun s _ => by simp [Session.lbConn]
  find := termPeer_find h hx hri hd
  cells := rfl

end Service

/-- However events and operations on listed objects are mixed, the process survives them and
its objects are in order. Giving up a peer takes the peer and its connections away and nothing
else; giving up a request does what the expiry of its T-12 does. -/
theorem operations_orderly (L : Libosmo) (hri : L.RiCmpEquivalence) (hid : L.ImsiCmpEq)
    {scu : Bool} {os : List Op} (hm : Meets (opStep L) (Op.Valid L) (World.init scu) os) :
    ∃ w, run (opStep L) (World.init scu) os = .ok w ∧ w.ObjectGraph L ∧
      (∀ x ∈ w.lbPeers, ∃ w', opStep L w (.peerTerm x.ptr) = .ok w' ∧ w.PeerTerm L x w') ∧
      ∀ y ∈ w.lbConns, ∃ r, y.smlcLocReq = some r ∧
        ∀ io, opStep L w (.locReqReset y.ptr io) = step L w ⟨.locReqTimer r, io⟩ := by
  let I : World → Prop := fun w => ∃ a : Service, a.WF ∧ a.Distinct L ∧ w = a.world
  have hstep : ∀ w o, I w → o.Valid L w → ∃ w', opStep L w o = .ok w' ∧ I w' := by
    rintro w o ⟨a, h, hd, rfl⟩ ho
    obtain ⟨b, hb, hwf, hdist⟩ := Service.opStep_total h hd ho
    exact ⟨b.world, hb, b, hwf, hdist, rfl⟩
  have h0 : I (World.init scu) := ⟨.init scu, Service.init_wf scu, Service.init_distinct scu, rfl⟩
  obtain ⟨w, hw⟩ := run_total_of_meets hstep h0 hm
  have hI : I w := by
    refine run_invariant_of_meets ?_ h0 hm hw
    intro u o u' hu ho hs
    obtain ⟨v, hv, hIv⟩ := hstep u o hu ho
    rw [hv] at hs
    exact Except.ok.inj hs ▸ hIv
  obtain ⟨a, h, hd, rfl⟩ := hI
  refine ⟨a.world, hw, Service.world_objectGraph h hd hri hid, fun x hx => ?_, fun y hy => ?_⟩
  · exact ⟨_, Service.opStep_peerTerm h hx, Service.world_peerTerm hri h hd hx⟩
  · obtain ⟨s, hs, rfl⟩ := List.mem_map.mp hy
    exact ⟨s.req, rfl, fun io => Service.opStep_locReqReset h hs⟩

/-- A peer is given up that has a request pending. -/
theorem operations_orderly_term :
    let os := [.event (Sample.resetFrom Sample.addrA),
      .event (Sample.connect 1 Sample.addrA Sample.msgRequestA), .peerTerm 0]
    ∃ w, run (opStep Sample.libosmo) (World.init true) os = .ok w ∧
      w.ObjectGraph Sample.libosmo := by
  intro os
  have hlisted : ∀ w, run (opStep Sample.libosmo) (World.init true) (os.take 2) = .ok w →
      ∃ x ∈ w.lbPeers, x.ptr = 0 := by
    intro w hw
    have hany : (run (opStep Sample.libosmo) (World.init true) (os.take 2)).toOption.any
        (fun w => w.lbPeers.any fun x => x.ptr = 0) = true := by decide +kernel
    rw [hw] at hany
    simpa [Except.toOption] using hany
  have hm : Meets (opStep Sample.libosmo) (Op.Valid Sample.libosmo) (World.init true) os := by
    refine ⟨?_, fun w1 h1 => ⟨?_, fun w2 h2 => ⟨?_, fun _ _ => trivial⟩⟩⟩
    · rintro ⟨connId, addr, l2, pdu, x, hev, -⟩
      cases hev
    · rintro ⟨connId, addr, l2, pdu, x, hev, -, -, -, -, hdec, hends⟩
      cases hev
      cases hdec
      cases hends
    · exact hlisted w2 (run_cons_ok.mpr ⟨w1, h1, run_cons_ok.mpr ⟨w2, h2, rfl⟩⟩)
  obtain ⟨w, hw, hgraph, -⟩ := operations_orderly Sample.libosmo Sample.libosmo_riCmp
    Sample.libosmo_imsiCmp hm
  exact ⟨w, hw, hgraph⟩

end OsmoSmlc
