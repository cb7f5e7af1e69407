import OsmoSmlc.Model.Sample
import OsmoSmlc.Properties.ObjectGraph
import OsmoSmlc.Service.PeerTable

/-! Which peer an address stands for, over whole runs. A peer is created for the first message
from its address and is what the address stands for from then on. -/
namespace OsmoSmlc
open Osmo

/-- The peer that an address stands for. -/
def World.peerAt (L : Libosmo) (w : World) (addr : SccpAddr) : Option PeerPtr :=
  (w.lbPeerFind L addr).map LbPeer.ptr

namespace Service

variable {L : Libosmo} {a a' : Service} {is : List Input} {addr : SccpAddr}

theorem peerAt_world : a.world.peerAt L addr = a.peerTable.find L addr := peerTable_find

/-- An address that is found was found before, or it comes with a new peer. -/
theorem step_find_new {i : Input} (ho : a.step L i = .ok a')
    (h : (a'.peerTable.find L addr).isSome) : (a.peerTable.find L addr).isSome ∨
      ∃ b, i.ev.calling? = some b ∧ L.sccpAddrRiCmp addr b = 0 := by
  rcases step_peerTable ho with hsame | ⟨b, hb, hg⟩
  · exact .inl (hsame ▸ h)
  · cases hg with
    | known hsame hfind => exact .inl (hsame ▸ h)
    | added hnew hadd =>
      rw [hadd, PeerTable.find, List.find?_cons] at h
      split at h
      · rename_i hcmp
        exact .inr ⟨b, hb, by simpa using hcmp⟩
      · exact .inl h

theorem run_find_new (hr : run (step L) a is = .ok a') (h : (a'.peerTable.find L addr).isSome) :
    (a.peerTable.find L addr).isSome ∨
      ∃ i ∈ is, ∃ b, i.ev.calling? = some b ∧ L.sccpAddrRiCmp addr b = 0 := by
  induction is generalizing a with
  | nil =>
    cases hr
    exact .inl h
  | cons i is ih =>
    obtain ⟨b, hb, hrun⟩ := run_cons_ok.mp hr
    rcases ih hrun with hfind | ⟨j, hj, c, hc⟩
    · rcases step_find_new hb hfind with hold | hnew
      · exact .inl hold
      · exact .inr ⟨i, List.mem_cons_self, hnew⟩
    · exact .inr ⟨j, List.mem_cons_of_mem i hj, c, hc⟩

theorem run_find {p : PeerPtr} (hri : L.RiCmpEquivalence) (hr : run (step L) a is = .ok a')
    (h : a.peerTable.find L addr = some p) : a'.peerTable.find L addr = some p :=
  run_invariant (I := fun b => b.peerTable.find L addr = some p)
    (fun _ _ _ hb ho => step_peerTable_find hri ho hb) h hr

/-- Whoever sends a connectionless message is known from then on. -/
theorem run_find_unitdata {i : Input} {l2 : List UInt8} (hri : L.RiCmpEquivalence)
    (hr : run (step L) a is = .ok a') (hi : i ∈ is) (hev : i.ev = .scu (.nUnitdata addr l2)) :
    (a'.peerTable.find L addr).isSome := by
  obtain ⟨before, after, rfl⟩ := List.append_of_mem hi
  obtain ⟨b, -, hrest⟩ := run_append.mp hr
  obtain ⟨c, hc, hafter⟩ := run_cons_ok.mp hrest
  have hknown : (c.peerTable.find L addr).isSome := by
    cases step_unitdata_grows hev hc with
    | known h hfind => exact h ▸ hfind
    | added hnew h =>
      rw [h, PeerTable.find, List.find?_cons_of_pos (by simpa using hri.refl addr)]
      rfl
  obtain ⟨p, hp⟩ := Option.isSome_iff_exists.mp hknown
  rw [run_find hri hafter hp]
  rfl

theorem run_peerTable (hr : run (step L) a is = .ok a') : a.peerTable <:+ a'.peerTable := by
  refine run_invariant (I := fun b => a.peerTable <:+ b.peerTable) ?_ (List.suffix_refl _) hr
  intro b i b' hb ho
  rcases step_peerTable ho with hsame | ⟨addr, -, hg⟩
  · exact hsame ▸ hb
  · cases hg with
    | known h hfind => exact h ▸ hb
    | added hnew h => exact h ▸ hb.trans (List.suffix_cons _ _)

end Service

/-- Peers are never given up or given another address; an address keeps its peer for good, and
different addresses have different peers; an address becomes known with a message from it, and
at the latest with its first connectionless one. -/
theorem peer_identity (L : Libosmo) (hri : L.RiCmpEquivalence) {w u : World}
    (hw : ReachableWorld L w) {is : List Input} (hr : run (step L) w is = .ok u) :
    w.peerTable <:+ u.peerTable ∧
    (∀ addr p, w.peerAt L addr = some p → u.peerAt L addr = some p) ∧
    (∀ addr addr' p, u.peerAt L addr = some p →
      (u.peerAt L addr' = some p ↔ L.sccpAddrRiCmp addr addr' = 0)) ∧
    (∀ addr, (u.peerAt L addr).isSome → (w.peerAt L addr).isSome ∨
      ∃ i ∈ is, ∃ b, i.ev.calling? = some b ∧ L.sccpAddrRiCmp addr b = 0) ∧
    ∀ i ∈ is, ∀ addr l2, i.ev = .scu (.nUnitdata addr l2) → (u.peerAt L addr).isSome := by
  obtain ⟨scu, a, -, hwf, rfl⟩ := hw.service
  obtain ⟨a', ha, hwf', rfl⟩ := run_world_ok L hwf hr
  refine ⟨Service.run_peerTable ha, ?_, ?_, ?_, ?_⟩
  · intro addr p hp
    rw [Service.peerAt_world] at hp ⊢
    exact Service.run_find hri ha hp
  · intro addr addr' p hp
    rw [Service.peerAt_world] at hp ⊢
    exact Service.find_iff hri hwf' hp
  · intro addr h
    rw [Service.peerAt_world] at h ⊢
    exact Service.run_find_new ha h
  · intro i hi addr l2 hev
    rw [Service.peerAt_world]
    exact Service.run_find_unitdata hri ha hi hev

/-- A second peer comes in after the first. -/
theorem peer_identity_two :
    let w := Sample.after [Sample.resetFrom Sample.addrA]
    let u := Sample.after [Sample.resetFrom Sample.addrA, Sample.resetFrom Sample.addrB]
    w.peerTable <:+ u.peerTable ∧ u.peerAt Sample.libosmo Sample.addrA = some 0 ∧
      u.peerAt Sample.libosmo Sample.addrB ≠ some 0 := by
  intro w u
  have hw : ReachableWorld Sample.libosmo w := Sample.reachable (by decide +kernel)
  have hstep : step Sample.libosmo w (Sample.resetFrom Sample.addrB) = .ok u :=
    Sample.step_after (by decide +kernel)
  have hr : run (step Sample.libosmo) w [Sample.resetFrom Sample.addrB] = .ok u :=
    run_cons_ok.mpr ⟨u, hstep, rfl⟩
  obtain ⟨hsuffix, hkeeps, hdiff, -⟩ := peer_identity Sample.libosmo Sample.libosmo_riCmp hw hr
  have hA : u.peerAt Sample.libosmo Sample.addrA = some 0 := hkeeps _ _ (by decide +kernel)
  refine ⟨hsuffix, hA, fun hB => ?_⟩
  exact absurd ((hdiff _ _ _ hA).mp hB) (by decide)

end OsmoSmlc
