import OsmoSmlc.Model.Sample
import OsmoSmlc.Service.LinkSteps

/-! What one peer has to do with the service: its messages and the timers of its connections
drive an interface of its own, and what the other peers do does not show in it. -/
namespace OsmoSmlc
open Osmo

variable {L : Libosmo} {addr : SccpAddr} {ids : ConnId → Bool}

/-- Of the connections of the service, those of the peer have its ids, and no others. -/
def World.Owned (L : Libosmo) (addr : SccpAddr) (ids : ConnId → Bool) (w : World) : Prop :=
  ∃ a : Service, a.WF ∧ a.Owned L addr ids ∧ w = a.world

theorem World.init_owned (scu : Bool) : (World.init scu).Owned L addr ids := by
  refine ⟨.init scu, Service.init_wf scu, ?_, rfl⟩
  intro s hs
  cases hs

namespace Service

variable {a a' : Service} {i : LbInput}

theorem link_world (h : a.WF) : a.world.link L addr ids
    = (a.link L addr ids, a.net.log.filterMap (Act.shownTo L addr ids)) := by
  unfold World.link
  rw [service_world h]
  rfl

/-- The log of the interface grows by what a step shows on it. -/
theorem log_shownTo {j : Input} (ho : a.step L j = .ok a') :
    a'.net.log.filterMap (Act.shownTo L addr ids)
      = a.net.log.filterMap (Act.shownTo L addr ids) ++ (a.effect L j).shownTo L addr ids :=
  filterMap_step (fun c => by cases c <;> rfl) ho

theorem lbStep_none (he : a.event? L i.ev = none) : lbStep L a.world i = .ok a.world := by
  unfold lbStep
  rw [event?_world, he]

theorem lbStep_some {ev : Event} (h : a.WF) (he : a.event? L i.ev = some ev) :
    lbStep L a.world i = (a.step L ⟨ev, i.io⟩).map world := by
  unfold lbStep
  rw [event?_world, he]
  exact step_world L h _

theorem lbStep_cases {w' : World} (h : a.WF) (hs : lbStep L a.world i = .ok w') :
    w' = a.world ∨
    ∃ ev a', a.event? L i.ev = some ev ∧ a.step L ⟨ev, i.io⟩ = .ok a' ∧ w' = a'.world := by
  cases he : a.event? L i.ev with
  | none =>
    rw [lbStep_none he] at hs
    cases hs
    exact .inl rfl
  | some ev =>
    rw [lbStep_some h he] at hs
    cases ha : a.step L ⟨ev, i.io⟩ with
    | error e =>
      rw [ha] at hs
      cases hs
    | ok a' =>
      rw [ha] at hs
      cases hs
      exact .inr ⟨ev, a', rfl, ha, rfl⟩

theorem lbStep_owned {w' : World} (hri : L.RiCmpEquivalence) (h : a.WF) (ho : a.Owned L addr ids)
    (hr : i.ev.Respects L addr ids) (hs : lbStep L a.world i = .ok w') : w'.Owned L addr ids := by
  rcases lbStep_cases h hs with rfl | ⟨ev, a', he, ha, rfl⟩
  · exact ⟨a, h, ho, rfl⟩
  · exact ⟨a', step_wf h ha, step_owned hri h ho hr he ha, rfl⟩

theorem lbStep_other {w' : World} (hri : L.RiCmpEquivalence) (h : a.WF) (ho : a.Owned L addr ids)
    (hr : i.ev.Respects L addr ids) (hc : i.ev.concerns L addr ids = false)
    (hs : lbStep L a.world i = .ok w') : w'.link L addr ids = a.world.link L addr ids := by
  rcases lbStep_cases h hs with rfl | ⟨ev, a', he, ha, rfl⟩
  · rfl
  · obtain ⟨hlink, hshown⟩ := step_other hri h ho hr hc he ha
    rw [link_world h, link_world (step_wf h ha), hlink, log_shownTo ha, hshown, List.append_nil]

theorem lbStep_own (hri : L.RiCmpEquivalence) (h : a.WF) (ho : a.Owned L addr ids)
    (hr : i.ev.Respects L addr ids) (hc : i.ev.concerns L addr ids = true) :
    LinkLog.step L (a.world.link L addr ids) i
      = (lbStep L a.world i).map (World.link L addr ids) := by
  rw [link_world h, LinkLog.step]
  cases he : a.event? L i.ev with
  | none =>
    rw [handle_none hri hc he, lbStep_none he]
    show Except.ok _ = Except.ok _
    rw [link_world h, List.append_nil]
  | some ev =>
    rw [step_own hri h ho hr hc he, lbStep_some h he]
    cases ha : a.step L ⟨ev, i.io⟩ with
    | error e => rfl
    | ok a' =>
      show Except.ok _ = Except.ok _
      rw [link_world (step_wf h ha), log_shownTo ha]

/-- A peer is the one that its own address is found for. -/
theorem find_peerAddr {x : LbPeer} (hri : L.RiCmpEquivalence) (hd : a.Distinct L)
    (hx : x ∈ a.lbPeers) :
    a.lbPeers.find? (fun y => L.sccpAddrRiCmp x.peerAddr y.peerAddr = 0) = some x := by
  have hsome : (a.lbPeers.find? fun y => L.sccpAddrRiCmp x.peerAddr y.peerAddr = 0).isSome :=
    List.find?_isSome.mpr ⟨x, hx, by simpa using hri.refl x.peerAddr⟩
  obtain ⟨y, hy⟩ := Option.isSome_iff_exists.mp hsome
  have hcmp : L.sccpAddrRiCmp x.peerAddr y.peerAddr = 0 := by simpa using List.find?_some hy
  rw [hy, hd.eq_of_cmp hri hx (List.mem_of_find?_eq_some hy) hcmp]

/-- Every event has a name, or it does nothing. -/
theorem step_by_name (hri : L.RiCmpEquivalence) (h : a.WF) (hd : a.Distinct L) (j : Input) :
    ∃ i : LbInput, lbStep L a.world i = (a.step L j).map world := by
  have hidle : ∀ io, lbStep L a.world ⟨.vty .cells, io⟩ = .ok a.world := fun io =>
    (lbStep_some h rfl).trans rfl
  obtain ⟨ev, io⟩ := j
  cases ev with
  | scu prim => exact ⟨⟨.scu prim, io⟩, lbStep_some h rfl⟩
  | vty cmd => exact ⟨⟨.vty cmd, io⟩, lbStep_some h rfl⟩
  | locReqTimer r =>
    cases hfind : a.sessions.find? fun s => s.req = r with
    | none =>
      refine ⟨⟨.vty .cells, io⟩, (hidle io).trans ?_⟩
      simp only [step, handle, locReqTimeout, hfind]
      rfl
    | some s =>
      have hs : s ∈ a.sessions := List.mem_of_find?_eq_some hfind
      have hreq : s.req = r := by simpa using List.find?_some hfind
      refine ⟨⟨.locReqTimer s.connId, io⟩, lbStep_some h ?_⟩
      rw [event?, find_connId h hs, ← hreq]
      rfl
  | lbPeerTimer p =>
    cases hfind : KeyedList.lookup LbPeer.ptr a.lbPeers p with
    | none =>
      refine ⟨⟨.vty .cells, io⟩, (hidle io).trans ?_⟩
      simp only [step, handle, lbPeerTimeout, hfind]
      rfl
    | some x =>
      have hx : x ∈ a.lbPeers := List.mem_of_find?_eq_some hfind
      have hptr : x.ptr = p := by simpa using List.find?_some hfind
      refine ⟨⟨.lbPeerTimer x.peerAddr, io⟩, lbStep_some h ?_⟩
      rw [event?, find_peerAddr hri hd hx, ← hptr]
      rfl

end Service

theorem World.part (L : Libosmo) (hri : L.RiCmpEquivalence) (addr : SccpAddr)
    (ids : ConnId → Bool) : Part (lbStep L) (LinkLog.step L) (World.link L addr ids)
      (World.Owned L addr ids) (fun i => i.ev.Respects L addr ids)
      fun i => i.ev.concerns L addr ids where
  inv := by
    rintro w i w' ⟨a, h, ho, rfl⟩ hr hs
    exact Service.lbStep_owned hri h ho hr hs
  other := by
    rintro w i w' ⟨a, h, ho, rfl⟩ hr hc hs
    exact Service.lbStep_other hri h ho hr hc hs
  own := by
    rintro w i ⟨a, h, ho, rfl⟩ hr hc
    exact Service.lbStep_own hri h ho hr hc

/-- A run by names is one of the process. -/
theorem lbRun_reachable {scu : Bool} {is : List LbInput} {w : World}
    (hr : run (lbStep L) (World.init scu) is = .ok w) : ReachableWorld L w := by
  refine run_invariant (I := ReachableWorld L) ?_ ⟨scu, Reachable.refl⟩ hr
  rintro w i w' ⟨scu, hw⟩ hs
  unfold lbStep at hs
  split at hs
  · exact ⟨scu, hw.snoc hs⟩
  · cases hs
    exact ⟨scu, hw⟩

/-- What happens between the service and a peer is what happens on its interface alone, fed
with the events of the peer and with the commands. It goes on so with the next event of the
peer, which fails only where the interface fails (a buffer that is freed twice is a failure of
neither); and every event is covered. -/
theorem run_link (L : Libosmo) (hri : L.RiCmpEquivalence) (addr : SccpAddr)
    (ids : ConnId → Bool) {scu : Bool} {is : List LbInput}
    (his : ∀ i ∈ is, i.ev.Respects L addr ids) {w : World}
    (hr : run (lbStep L) (World.init scu) is = .ok w) :
    run (LinkLog.step L) (Link.init scu, []) (is.filter fun i => i.ev.concerns L addr ids)
      = .ok (w.link L addr ids) ∧
    (∀ i : LbInput, i.ev.Respects L addr ids → i.ev.concerns L addr ids = true →
      LinkLog.step L (w.link L addr ids) i = (lbStep L w i).map (World.link L addr ids)) ∧
    ∀ j : Input, ∃ i : LbInput, lbStep L w i = step L w j := by
  have hpart := World.part L hri addr ids
  obtain ⟨hlink, howned⟩ := hpart.run (World.init_owned scu) his hr
  refine ⟨hlink, fun i hi hc => hpart.own w i howned hi hc, fun j => ?_⟩
  obtain ⟨scu', a, ha, hwf, rfl⟩ := (lbRun_reachable hr).service
  obtain ⟨i, hi⟩ := Service.step_by_name hri hwf (Service.reachable_distinct ha) j
  exact ⟨i, hi.trans (step_world L hwf j).symm⟩

section Two
open Sample

/-- Two peers with a connection each, and the end of both requests. -/
def Sample.twoPeers : List LbInput :=
  [⟨.scu (.nUnitdata addrA msgReset), io⟩, ⟨.scu (.nUnitdata addrB msgReset), io⟩,
   ⟨.scu (.nConnect 1 addrA msgRequestA), io⟩, ⟨.scu (.nConnect 2 addrB msgRequestB), io⟩,
   ⟨.scu (.nData 2 msgAbort), io⟩, ⟨.locReqTimer 1, io⟩]

theorem Sample.twoPeers_runs :
    ∃ w, run (lbStep libosmo) (World.init true) twoPeers = .ok w := by
  have hok : (run (lbStep libosmo) (World.init true) twoPeers).isOk = true := by decide +kernel
  cases hr : run (lbStep libosmo) (World.init true) twoPeers with
  | ok w => exact ⟨w, rfl⟩
  | error e =>
    rw [hr] at hok
    cases hok

theorem Sample.twoPeers_respects :
    ∀ i ∈ twoPeers, i.ev.Respects libosmo addrA fun c => c = 1 := by
  simp [twoPeers, LbEvent.Respects, libosmo, addrA, addrB]

/-- The interface to the first of two peers. -/
theorem run_link_two : ∃ w, run (lbStep libosmo) (World.init true) twoPeers = .ok w ∧
    run (LinkLog.step libosmo) (Link.init true, [])
      [⟨.scu (.nUnitdata addrA msgReset), io⟩, ⟨.scu (.nConnect 1 addrA msgRequestA), io⟩,
       ⟨.locReqTimer 1, io⟩] = .ok (w.link libosmo addrA fun c => c = 1) := by
  obtain ⟨w, hw⟩ := twoPeers_runs
  exact ⟨w, hw, (run_link libosmo libosmo_riCmp addrA (fun c => c = 1) twoPeers_respects hw).1⟩

end Two

/-- No peer can tell what the others do. Two runs with the same events of a peer show the same
on its interface, and so does the run in which nobody else ever sends anything. -/
theorem links_apart (L : Libosmo) (hri : L.RiCmpEquivalence) (addr : SccpAddr)
    (ids : ConnId → Bool) {scu : Bool} {is js : List LbInput}
    (his : ∀ i ∈ is, i.ev.Respects L addr ids) (hjs : ∀ i ∈ js, i.ev.Respects L addr ids)
    (heq : is.filter (fun i => i.ev.concerns L addr ids)
      = js.filter fun i => i.ev.concerns L addr ids) {w u : World}
    (hr : run (lbStep L) (World.init scu) is = .ok w)
    (hu : run (lbStep L) (World.init scu) js = .ok u) :
    w.link L addr ids = u.link L addr ids ∧
    ∃ v, run (lbStep L) (World.init scu) (is.filter fun i => i.ev.concerns L addr ids) = .ok v ∧
      v.link L addr ids = w.link L addr ids := by
  have hpart := World.part L hri addr ids
  exact ⟨hpart.run_eq (World.init_owned scu) (World.init_owned scu) rfl his hjs heq hr hu,
    hpart.run_own (World.init_owned scu) (World.init_owned scu) rfl his hr⟩

/-- The second peer might as well not be there. -/
theorem links_apart_two : ∃ w v,
    run (lbStep Sample.libosmo) (World.init true) Sample.twoPeers = .ok w ∧
    run (lbStep Sample.libosmo) (World.init true) (Sample.twoPeers.filter fun i =>
      i.ev.concerns Sample.libosmo Sample.addrA fun c => c = 1) = .ok v ∧
    v.link Sample.libosmo Sample.addrA (fun c => c = 1)
      = w.link Sample.libosmo Sample.addrA fun c => c = 1 := by
  obtain ⟨w, hw⟩ := Sample.twoPeers_runs
  obtain ⟨-, v, hv, hlink⟩ := links_apart Sample.libosmo Sample.libosmo_riCmp Sample.addrA
    (fun c => c = 1) Sample.twoPeers_respects Sample.twoPeers_respects rfl hw hw
  exact ⟨w, v, hw, hv, hlink⟩

end OsmoSmlc
