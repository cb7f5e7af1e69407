import OsmoSmlc.Service.Objects

/-! The process refines the service: what the objects stand for is computed from them, it
changes with every event as the service says, and it determines the objects. -/
namespace OsmoSmlc
open Osmo

/-- The session of a connection, where its pointers lead to a peer and a request. -/
def World.session? (w : World) (x : LbConn) : Option Session := do
  let p ← x.lbPeer
  let r ← x.smlcLocReq
  let q ← w.locReq? r
  return ⟨x.ptr, x.sccpConnId, p, x.smlcSubscr, r, q.req⟩

/-- What the objects of the process stand for. -/
def World.service (w : World) : Service where
  lbPeers := w.lbPeers
  sessions := w.lbConns.filterMap w.session?
  subscrs := w.subscrs.list.map fun x => ⟨x.ptr, x.imsi⟩
  nextSubscr := w.subscrs.next
  cellLocations := w.cellLocations
  next := w.next
  net := w.net

namespace Service

variable {L : Libosmo} {a : Service} {s : Session}

theorem session?_world (h : a.WF) (hs : s ∈ a.sessions) : a.world.session? s.lbConn = some s := by
  simp [World.session?, Session.lbConn, world_locReq? h hs, Session.locReq]

/-- The objects that are kept for a service stand for it. -/
theorem service_world (h : a.WF) : a.world.service = a := by
  have hsessions : a.world.lbConns.filterMap a.world.session? = a.sessions := by
    show (a.sessions.map Session.lbConn).filterMap a.world.session? = a.sessions
    rw [List.filterMap_map]
    have hid : ∀ s ∈ a.sessions, (a.world.session? ∘ Session.lbConn) s = some s :=
      fun s hs => session?_world h hs
    rw [List.filterMap_congr hid, List.filterMap_some]
  have hsubscrs : a.world.subscrs.list.map (fun x => (⟨x.ptr, x.imsi⟩ : Subscr)) = a.subscrs := by
    show (a.subscrs.map _).map _ = a.subscrs
    rw [List.map_map]
    exact List.map_id a.subscrs
  apply Service.ext
  · rfl
  · exact hsessions
  · exact hsubscrs
  · rfl
  · rfl
  · rfl
  · rfl

end Service

/-- Whatever happens, the process fails where the service fails, and else provides what the
service provides, with no more and no fewer objects than it takes. (A buffer that is freed
twice is a failure of neither.) -/
theorem run_refines (L : Libosmo) (scu : Bool) (is : List Input) :
    (run (step L) (World.init scu) is).map World.service
      = run (Service.step L) (Service.init scu) is ∧
    ∀ w, run (step L) (World.init scu) is = .ok w → w.service.world = w := by
  have hrun : run (step L) (World.init scu) is
      = (run (Service.step L) (Service.init scu) is).map Service.world :=
    run_world L (Service.init_wf scu) is
  rw [hrun]
  cases hr : run (Service.step L) (Service.init scu) is with
  | error e =>
    refine ⟨rfl, ?_⟩
    rintro w ⟨⟩
  | ok a =>
    have hwf : a.WF := Service.run_wf L (Service.init_wf scu) hr
    have ha : a.world.service = a := Service.service_world hwf
    refine ⟨congrArg Except.ok ha, ?_⟩
    rintro w ⟨⟩
    rw [ha]

end OsmoSmlc
