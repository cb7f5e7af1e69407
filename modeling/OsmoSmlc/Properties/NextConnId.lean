import OsmoSmlc.Core.CyclicSearch
import OsmoSmlc.Core.Run
import OsmoSmlc.Model.NextConnId
import OsmoSmlc.Model.Sample
import OsmoSmlc.Service.Opening
import OsmoSmlc.Service.Simulation

/-! The ids of the connections that the SMLC opens itself. The search for a free id goes around
through all ids of 24 bits, but stops one before it has seen them all. -/
namespace OsmoSmlc
open Osmo CyclicSearch

/-- The ids that the SMLC picks from. -/
def sccpConnIds : Set ConnId := {id | id.toNat < 2 ^ 24}

/-- How many steps the cursor takes to an id, around through 0. -/
def ahead (nextId id : ConnId) : Nat := (id.toNat + 2 ^ 24 - nextId.toNat) % 2 ^ 24

def succConnId (id : ConnId) : ConnId := (id + 1) &&& 0xffffff

/-- Each connection belongs to a peer that is listed. -/
def World.PeersListed (w : World) : Prop :=
  ∀ x ∈ w.lbConns, ∃ p ∈ w.lbPeers, x.lbPeer = some p.ptr

def World.ConnIdUsed (w : World) (id : ConnId) : Prop := ∃ x ∈ w.lbConns, x.sccpConnId = id

/-- The first id from the cursor on that no connection uses. -/
def World.FirstFree (w : World) (nextId id : ConnId) : Prop :=
  CyclicSearch.FirstFree sccpConnIds ahead (fun id => ¬w.ConnIdUsed id) nextId id

/-- The ids are used up. -/
def World.NoneFree (w : World) : Prop := ∀ id ∈ sccpConnIds, w.ConnIdUsed id

/-- The only free id is the one right before the cursor. -/
def World.OnlyLastFree (w : World) (nextId : ConnId) : Prop :=
  ∀ id ∈ sccpConnIds, ¬w.ConnIdUsed id ↔ (id.toNat + 1) % 2 ^ 24 = nextId.toNat

section Cycle

variable {id nextId : ConnId}

theorem toNat_succConnId (id : ConnId) : (succConnId id).toNat = (id.toNat + 1) % 2 ^ 24 := by
  have hmask : (succConnId id).toNat = (id + 1).toNat % 2 ^ 24 := by
    rw [succConnId, UInt32.toNat_and]
    exact Nat.and_two_pow_sub_one_eq_mod _ 24
  rw [hmask, UInt32.toNat_add]
  show (id.toNat + 1) % 2 ^ 32 % 2 ^ 24 = _
  omega

theorem toNat_iterate_succConnId (h : nextId ∈ sccpConnIds) (k : Nat) :
    (succConnId^[k] nextId).toNat = (nextId.toNat + k) % 2 ^ 24 := by
  have hlt : nextId.toNat < 2 ^ 24 := h
  induction k with
  | zero =>
    show nextId.toNat = _
    omega
  | succ k ih =>
    rw [Function.iterate_succ_apply', toNat_succConnId, ih]
    omega

/-- From any id the mask leads around through all of them. -/
theorem succConnId_cycle : Cycle succConnId sccpConnIds (2 ^ 24) ahead where
  next_mem id _ := by
    show (succConnId id).toNat < 2 ^ 24
    rw [toNat_succConnId]
    exact Nat.mod_lt _ (by decide)
  steps_lt _ _ _ _ := Nat.mod_lt _ (by decide)
  iterate_steps a ha b hb := by
    have ha' : a.toNat < 2 ^ 24 := ha
    have hb' : b.toNat < 2 ^ 24 := hb
    apply UInt32.toNat_inj.mp
    rw [toNat_iterate_succConnId ha, ahead]
    omega
  steps_iterate a ha k hk := by
    have ha' : a.toNat < 2 ^ 24 := ha
    rw [ahead, toNat_iterate_succConnId ha]
    omega

/-- The id that a round of the search misses is the one right before the cursor. -/
theorem last_ahead (h : nextId ∈ sccpConnIds) (hid : id ∈ sccpConnIds) :
    0xFFFFFF ≤ ahead nextId id ↔ (id.toNat + 1) % 2 ^ 24 = nextId.toNat := by
  have h' : nextId.toNat < 2 ^ 24 := h
  have hid' : id.toNat < 2 ^ 24 := hid
  unfold ahead
  omega

theorem toInt_toInt32 (h : id ∈ sccpConnIds) : id.toInt32.toInt = id.toNat := by
  have hlt : id.toNat < 2 ^ 24 := h
  have htwo : 2 * id.toNat < 2 ^ 32 := by omega
  exact BitVec.toInt_eq_toNat_of_lt htwo

end Cycle

section NextConnId

variable {w : World} {id nextId : ConnId} {n : Nat}

theorem connIdAlreadyUsed_iff (hw : w.PeersListed) (id : ConnId) :
    w.connIdAlreadyUsed id = true ↔ w.ConnIdUsed id := by
  simp only [World.connIdAlreadyUsed, World.lbPeerConns, List.any_eq_true, List.mem_filter,
    decide_eq_true_eq, beq_iff_eq]
  constructor
  · rintro ⟨p, -, x, ⟨hx, -⟩, hid⟩
    exact ⟨x, hx, hid.symm⟩
  · rintro ⟨x, hx, hid⟩
    obtain ⟨p, hp, hxp⟩ := hw x hx
    exact ⟨p, hp, x, ⟨hx, hxp⟩, hid.symm⟩

theorem firstFree_iff (hw : w.PeersListed) : w.FirstFree nextId id ↔
    CyclicSearch.FirstFree sccpConnIds ahead (fun id => w.connIdAlreadyUsed id = false)
      nextId id := by
  have hfree : (fun id => ¬w.ConnIdUsed id) = fun id => w.connIdAlreadyUsed id = false := by
    funext id
    rw [← connIdAlreadyUsed_iff hw, Bool.not_eq_true]
  rw [World.FirstFree, hfree]

theorem exists_firstFree_iff : (∃ id, w.FirstFree nextId id) ↔ ¬w.NoneFree := by
  constructor
  · rintro ⟨id, hid⟩ hnone
    exact hid.unused (hnone id hid.mem)
  · intro hsome
    unfold World.NoneFree at hsome
    push Not at hsome
    exact exists_firstFree ahead nextId hsome

/-- The loop is the search, with the id that it finds as a number. -/
theorem nextConnIdLoop_eq (w : World) (n : Nat) (nextId : ConnId) :
    nextConnIdLoop w n nextId
      = (((search w.connIdAlreadyUsed succConnId n nextId).1.map fun id =>
          id.toInt32.toInt).getD (-1), (search w.connIdAlreadyUsed succConnId n nextId).2) := by
  induction n generalizing nextId with
  | zero => rfl
  | succ n ih =>
    have hloop : nextConnIdLoop w (n + 1) nextId =
        if w.connIdAlreadyUsed nextId then nextConnIdLoop w n (succConnId nextId)
        else (nextId.toInt32.toInt, succConnId nextId) := rfl
    rw [hloop, search]
    split
    · exact ih _
    · rfl

theorem sccpLbInstNextConnId_found (hw : w.PeersListed) (hn : nextId ∈ sccpConnIds)
    (hid : w.FirstFree nextId id) (hlt : ahead nextId id < 0xFFFFFF) :
    sccpLbInstNextConnId ⟨w, nextId⟩ = ((id.toNat : Int), ⟨w, succConnId id⟩) := by
  have hsearch := succConnId_cycle.search_firstFree hn ((firstFree_iff hw).mp hid) hlt
  rw [sccpLbInstNextConnId, nextConnIdLoop_eq, hsearch, ← toInt_toInt32 hid.mem]
  rfl

/-- The free id is there, and is not found. -/
theorem sccpLbInstNextConnId_missed (hw : w.PeersListed) (hn : nextId ∈ sccpConnIds)
    (hid : w.FirstFree nextId id) (hle : 0xFFFFFF ≤ ahead nextId id) :
    sccpLbInstNextConnId ⟨w, nextId⟩ = (-1, ⟨w, succConnId^[0xFFFFFF] nextId⟩) := by
  have hsearch := succConnId_cycle.search_short hn ((firstFree_iff hw).mp hid) hle
  rw [sccpLbInstNextConnId, nextConnIdLoop_eq, hsearch]
  simp only [Option.map_none, Option.getD_none]

theorem sccpLbInstNextConnId_none (hw : w.PeersListed) (hn : nextId ∈ sccpConnIds)
    (h : w.NoneFree) :
    sccpLbInstNextConnId ⟨w, nextId⟩ = (-1, ⟨w, succConnId^[0xFFFFFF] nextId⟩) := by
  have hused : ∀ id ∈ sccpConnIds, w.connIdAlreadyUsed id = true := fun id hid =>
    (connIdAlreadyUsed_iff hw id).mpr (h id hid)
  rw [sccpLbInstNextConnId, nextConnIdLoop_eq, succConnId_cycle.search_full hn hused]
  simp only [Option.map_none, Option.getD_none]

/-- The first free id is right before the cursor just if no other id is free. -/
theorem onlyLastFree_iff (hn : nextId ∈ sccpConnIds) : w.OnlyLastFree nextId ↔
    ∃ id, w.FirstFree nextId id ∧ 0xFFFFFF ≤ ahead nextId id := by
  constructor
  · intro honly
    have hlast := succConnId_cycle.iterate_mem hn 0xFFFFFF
    have hfree : ¬w.ConnIdUsed (succConnId^[0xFFFFFF] nextId) := by
      rw [honly _ hlast, toNat_iterate_succConnId hn]
      have hlt : nextId.toNat < 2 ^ 24 := hn
      omega
    obtain ⟨id, hid⟩ : ∃ id, w.FirstFree nextId id :=
      exists_firstFree_iff.mpr fun hnone => hfree (hnone _ hlast)
    exact ⟨id, hid, (last_ahead hn hid.mem).mpr ((honly id hid.mem).mp hid.unused)⟩
  · rintro ⟨id, hid, hle⟩ c hc
    constructor
    · intro hfree
      exact (last_ahead hn hc).mp (hle.trans (hid.first c hc hfree))
    · intro hlast
      have hid' := (last_ahead hn hid.mem).mp hle
      have heq : c = id := by
        have hc' : c.toNat < 2 ^ 24 := hc
        have hid'' : id.toNat < 2 ^ 24 := hid.mem
        apply UInt32.toNat_inj.mp
        omega
      rw [heq]
      exact hid.unused

end NextConnId

section Outgoing

variable {w w' : World} {id nextId : ConnId} {p : PeerPtr} {use : Use}

def World.connIds (w : World) : List ConnId := w.lbConns.map LbConn.sccpConnId

/-- A connection of the peer is listed before all others, which keep their ids and peers. -/
structure Opened (w w' : World) (p : PeerPtr) (id : ConnId) : Prop where
  lbPeers : w'.lbPeers = w.lbPeers
  lbConns : w'.lbConns.map (fun x => (x.sccpConnId, x.lbPeer))
    = (id, some p) :: w.lbConns.map fun x => (x.sccpConnId, x.lbPeer)

theorem Opened.connIds_eq (h : Opened w w' p id) : w'.connIds = id :: w.connIds := by
  have hids := congrArg (List.map Prod.fst) h.lbConns
  rw [List.map_cons, List.map_map, List.map_map] at hids
  exact hids

theorem Opened.nodup (h : Opened w w' p id) (hid : ¬w.ConnIdUsed id) (hnd : w.connIds.Nodup) :
    w'.connIds.Nodup := by
  rw [h.connIds_eq, List.nodup_cons]
  refine ⟨fun hmem => ?_, hnd⟩
  obtain ⟨x, hx, hxid⟩ := List.mem_map.mp hmem
  exact hid ⟨x, hx, hxid⟩

theorem Opened.peersListed (h : Opened w w' p id) (hp : ∃ y ∈ w.lbPeers, y.ptr = p)
    (hw : w.PeersListed) : w'.PeersListed := by
  intro x hx
  have hmem : (x.sccpConnId, x.lbPeer) ∈ w'.lbConns.map fun x => (x.sccpConnId, x.lbPeer) :=
    List.mem_map_of_mem hx
  rw [h.lbPeers]
  rw [h.lbConns, List.mem_cons] at hmem
  rcases hmem with hnew | hold
  · obtain ⟨y, hy, rfl⟩ := hp
    exact ⟨y, hy, congrArg Prod.snd hnew⟩
  · obtain ⟨z, hz, hzx⟩ := List.mem_map.mp hold
    obtain ⟨y, hy, hyz⟩ := hw z hz
    exact ⟨y, hy, (congrArg Prod.snd hzx).symm.trans hyz⟩

theorem lbConnAlloc_opened (w : World) (p : PeerPtr) (id : ConnId) (use : Use) :
    ∃ w', lbConnAlloc p id use w = .ok (w.next.conn, w') ∧ Opened w w' p id := by
  refine ⟨_, lbConnAlloc_ok w p id use, rfl, ?_⟩
  exact KeyedList.map_update fun _ => rfl

theorem ofInt_toNat (id : ConnId) : UInt32.ofInt (id.toNat : Int) = id := by
  have hlt : id.toNat < 2 ^ 32 := UInt32.toNat_lt id
  have hmod : ((id.toNat : Int) % 2 ^ 32).toNat = id.toNat := by omega
  rw [UInt32.ofInt, hmod, UInt32.ofNat_toNat]

theorem lbConnCreateOutgoing_opened (p : PeerPtr) (use : Use)
    (h : sccpLbInstNextConnId ⟨w, nextId⟩ = ((id.toNat : Int), ⟨w, succConnId id⟩)) :
    ∃ w', lbConnCreateOutgoing p use ⟨w, nextId⟩ = .ok (some w.next.conn, ⟨w', succConnId id⟩) ∧
      Opened w w' p id := by
  obtain ⟨w', halloc, hopened⟩ := lbConnAlloc_opened w p id use
  refine ⟨w', ?_, hopened⟩
  have hpos : ¬(id.toNat : Int) < 0 := by omega
  rw [lbConnCreateOutgoing, Prog.bind_ok ((Prog.act_apply _ _).trans (congrArg _ h)), if_neg hpos,
    ofInt_toNat]
  exact (Prog.bind_ok (Prog.zoom_ok halloc)).trans rfl

theorem lbConnCreateOutgoing_none (p : PeerPtr) (use : Use) {s : ConnIds}
    (h : sccpLbInstNextConnId ⟨w, nextId⟩ = (-1, s)) :
    lbConnCreateOutgoing p use ⟨w, nextId⟩ = .ok (none, s) := by
  rw [lbConnCreateOutgoing, Prog.bind_ok ((Prog.act_apply _ _).trans (congrArg _ h)),
    if_pos (by decide)]
  rfl

/-- A connection is opened with the first free id, or else there is none, or only the one that
the search does not come to. -/
theorem lbConnCreateOutgoing_cases (hw : w.PeersListed) (hn : nextId ∈ sccpConnIds)
    (p : PeerPtr) (use : Use) :
    (∃ id w', w.FirstFree nextId id ∧ Opened w w' p id ∧
      lbConnCreateOutgoing p use ⟨w, nextId⟩ = .ok (some w.next.conn, ⟨w', succConnId id⟩)) ∨
    (w.NoneFree ∨ w.OnlyLastFree nextId) ∧ ∃ c ∈ sccpConnIds,
      lbConnCreateOutgoing p use ⟨w, nextId⟩ = .ok (none, ⟨w, c⟩) := by
  have hcursor := succConnId_cycle.iterate_mem hn 0xFFFFFF
  by_cases hnone : w.NoneFree
  · have hrun := lbConnCreateOutgoing_none p use (sccpLbInstNextConnId_none hw hn hnone)
    exact .inr ⟨.inl hnone, _, hcursor, hrun⟩
  · obtain ⟨id, hid⟩ : ∃ id, w.FirstFree nextId id := exists_firstFree_iff.mpr hnone
    rcases Nat.lt_or_ge (ahead nextId id) 0xFFFFFF with hlt | hle
    · obtain ⟨w', hrun, hopened⟩ := lbConnCreateOutgoing_opened p use
        (sccpLbInstNextConnId_found hw hn hid hlt)
      exact .inl ⟨id, w', hid, hopened, hrun⟩
    · have hlast := (onlyLastFree_iff hn).mpr ⟨id, hid, hle⟩
      have hrun := lbConnCreateOutgoing_none p use (sccpLbInstNextConnId_missed hw hn hid hle)
      exact .inr ⟨.inr hlast, _, hcursor, hrun⟩

end Outgoing

/-! Whether or not an id is found, no two connections ever share one. -/
section Openings

variable {s : ConnIds} {p : PeerPtr} {use : Use}

/-- What the opening of a connection relies on, and keeps. -/
structure ConnIds.Form (s : ConnIds) : Prop where
  peersListed : s.world.PeersListed
  distinct : s.world.connIds.Nodup
  cursor : s.nextId ∈ sccpConnIds

theorem init_form (scu : Bool) : (ConnIds.init scu).Form where
  peersListed _ hx := absurd hx List.not_mem_nil
  distinct := List.nodup_nil
  cursor := by
    show (1 : UInt32).toNat < 2 ^ 24
    decide

/-- One call of `lb_conn_create_outgoing`. -/
def openStep (s : ConnIds) (i : PeerPtr × Use) : Except Crash ConnIds :=
  (lbConnCreateOutgoing i.1 i.2 s).map Prod.snd

theorem openStep_form (h : s.Form) (hp : ∃ y ∈ s.world.lbPeers, y.ptr = p) (use : Use) :
    ∃ s', openStep s (p, use) = .ok s' ∧ s'.Form ∧ s'.world.lbPeers = s.world.lbPeers := by
  unfold openStep
  rcases lbConnCreateOutgoing_cases h.peersListed h.cursor p use with
    ⟨id, w', hid, hopened, hrun⟩ | ⟨-, c, hc, hrun⟩
  · refine ⟨⟨w', succConnId id⟩, by rw [hrun]; rfl, ⟨?_, ?_, ?_⟩, hopened.lbPeers⟩
    · exact hopened.peersListed hp h.peersListed
    · exact hopened.nodup hid.unused h.distinct
    · exact succConnId_cycle.next_mem id hid.mem
  · exact ⟨⟨s.world, c⟩, by rw [hrun]; rfl, ⟨h.peersListed, h.distinct, hc⟩, rfl⟩

/-- However many connections are opened for peers that are listed, the process does not die of
it, and the ids are distinct. -/
theorem openings_form {is : List (PeerPtr × Use)} (h : s.Form)
    (hp : ∀ i ∈ is, ∃ y ∈ s.world.lbPeers, y.ptr = i.1) :
    ∃ s', run openStep s is = .ok s' ∧ s'.Form := by
  induction is generalizing s with
  | nil => exact ⟨s, rfl, h⟩
  | cons i is ih =>
    obtain ⟨t, ht, hform, hpeers⟩ := openStep_form h (hp i List.mem_cons_self) i.2
    have hp' : ∀ j ∈ is, ∃ y ∈ t.world.lbPeers, y.ptr = j.1 := by
      intro j hj
      rw [hpeers]
      exact hp j (List.mem_cons_of_mem i hj)
    obtain ⟨s', hs', hform'⟩ := ih hform hp'
    exact ⟨s', run_cons_ok.mpr ⟨t, ht, hs'⟩, hform'⟩

/-- Between two events connections can be opened, whatever the cursor. -/
theorem ReachableWorld.connIdsForm {L : Libosmo} {w : World} (h : ReachableWorld L w)
    {nextId : ConnId} (hn : nextId ∈ sccpConnIds) : (ConnIds.mk w nextId).Form := by
  obtain ⟨-, a, -, hwf, rfl⟩ := h.service
  exact ⟨fun x hx => hwf.world_peer hx, hwf.world_connIds, hn⟩

end Openings

/-- What is expected of the ids: the search yields the first free one and goes on behind it, it
yields -1 just if there is none, and only then is no connection opened. -/
structure ConnIds.Allocates (s : ConnIds) : Prop where
  found : ∀ id, s.world.FirstFree s.nextId id →
    (sccpLbInstNextConnId s).1 = id.toNat ∧
      (sccpLbInstNextConnId s).2.nextId.toNat = (id.toNat + 1) % 2 ^ 24
  exhausted : (sccpLbInstNextConnId s).1 = -1 ↔ s.world.NoneFree
  outgoing : ∀ p use, s.world.connIds.Nodup → ∃ o s',
    lbConnCreateOutgoing p use s = .ok (o, s') ∧ s'.world.connIds.Nodup ∧
      (∀ c, o = some c → ∃ id, s.world.FirstFree s.nextId id ∧ Opened s.world s'.world p id) ∧
      (o = none → s'.world = s.world ∧ s.world.NoneFree)

/-- The ids are given out as expected unless only the id right before the cursor is free: the
search goes around through `0xFFFFFF` ids, and there is one more. -/
theorem connIds_allocated_iff (s : ConnIds) (hw : s.world.PeersListed)
    (hn : s.nextId.toNat < 2 ^ 24) : s.Allocates ↔ ¬s.world.OnlyLastFree s.nextId := by
  constructor
  · intro ha honly
    obtain ⟨id, hid, hle⟩ := (onlyLastFree_iff hn).mp honly
    have hmissed : (sccpLbInstNextConnId s).1 = -1 :=
      congrArg Prod.fst (sccpLbInstNextConnId_missed hw hn hid hle)
    have hfound := (ha.found id hid).1
    omega
  · intro hnot
    have hfound : ∀ id, s.world.FirstFree s.nextId id →
        sccpLbInstNextConnId s = ((id.toNat : Int), ⟨s.world, succConnId id⟩) := by
      intro id hid
      rcases Nat.lt_or_ge (ahead s.nextId id) 0xFFFFFF with hlt | hle
      · exact sccpLbInstNextConnId_found hw hn hid hlt
      · exact absurd ((onlyLastFree_iff hn).mpr ⟨id, hid, hle⟩) hnot
    constructor
    · intro id hid
      rw [hfound id hid]
      exact ⟨rfl, toNat_succConnId id⟩
    · constructor
      · intro hrc
        by_contra hsome
        obtain ⟨id, hid⟩ : ∃ id, s.world.FirstFree s.nextId id := exists_firstFree_iff.mpr hsome
        rw [hfound id hid] at hrc
        have hneg : (id.toNat : Int) = -1 := hrc
        omega
      · intro hnone
        exact congrArg Prod.fst (sccpLbInstNextConnId_none hw hn hnone)
    · intro p use hnd
      rcases lbConnCreateOutgoing_cases hw hn p use with
        ⟨id, w', hid, hopened, hrun⟩ | ⟨hnone, c, -, hrun⟩
      · refine ⟨_, _, hrun, hopened.nodup hid.unused hnd, fun _ _ => ⟨id, hid, hopened⟩, ?_⟩
        exact fun ho => absurd ho (Option.some_ne_none _)
      · refine ⟨_, _, hrun, hnd, fun c hc => ?_, fun _ => ⟨rfl, hnone.resolve_right hnot⟩⟩
        cases hc

/-- With the ids 1 and 2 in use the search from 1 on yields 3. -/
theorem connIds_allocated_iff_two :
    let s : ConnIds := ⟨Sample.after Sample.twoConns, 1⟩
    sccpLbInstNextConnId s = (3, ⟨s.world, 4⟩) ∧ s.Allocates := by
  intro s
  have hw : ReachableWorld Sample.libosmo (Sample.after Sample.twoConns) :=
    Sample.reachable (by decide +kernel)
  have hn : s.nextId = 1 := rfl
  have hform : s.Form := hw.connIdsForm (by decide : (1 : ConnId).toNat < 2 ^ 24)
  have hrun : sccpLbInstNextConnId s = (3, ⟨s.world, 4⟩) := by decide +kernel
  have hfree : ¬s.world.ConnIdUsed 3 := by
    unfold World.ConnIdUsed
    decide +kernel
  clear_value s
  refine ⟨hrun, (connIds_allocated_iff s hform.peersListed hform.cursor).mpr ?_⟩
  intro honly
  have hlast := (honly 3 (by decide : (3 : ConnId).toNat < 2 ^ 24)).mp hfree
  rw [hn] at hlast
  exact absurd hlast (by decide)

/-- A peer with a connection on each id from 1 to `n`, and the cursor at 1. -/
def withIds (n : Nat) : ConnIds where
  world := { World.init true with
    lbPeers := [⟨0, ⟨.ready, false, false⟩, Sample.addrA⟩]
    lbConns := (List.range n).map fun i =>
      ⟨i, [(.smlcLocReq, 1)], some 0, UInt32.ofNat (i + 1), false, none, none⟩
    next := ⟨1, n, 0⟩ }
  nextId := 1

theorem withIds_used {n : Nat} (hn : n < 2 ^ 24) (id : ConnId) :
    (withIds n).world.ConnIdUsed id ↔ 1 ≤ id.toNat ∧ id.toNat ≤ n := by
  constructor
  · rintro ⟨x, hx, hid⟩
    obtain ⟨i, hi, rfl⟩ := List.mem_map.mp hx
    have hlt := List.mem_range.mp hi
    have hnat : (UInt32.ofNat (i + 1)).toNat = id.toNat := congrArg UInt32.toNat hid
    rw [UInt32.toNat_ofNat'] at hnat
    omega
  · rintro ⟨hpos, hle⟩
    have hi : id.toNat - 1 ∈ List.range n := List.mem_range.mpr (by omega)
    refine ⟨_, List.mem_map_of_mem hi, ?_⟩
    show UInt32.ofNat (id.toNat - 1 + 1) = id
    rw [Nat.sub_add_cancel hpos, UInt32.ofNat_toNat]

theorem withIds_form {n : Nat} (hn : n < 2 ^ 24) : (withIds n).Form where
  peersListed := by
    intro x hx
    obtain ⟨i, -, rfl⟩ := List.mem_map.mp hx
    exact ⟨_, List.mem_singleton.mpr rfl, rfl⟩
  distinct := by
    unfold World.connIds withIds
    rw [List.map_map]
    refine List.Nodup.map_on ?_ List.nodup_range
    intro i hi j hj hij
    have hi' := List.mem_range.mp hi
    have hj' := List.mem_range.mp hj
    have hnat : (UInt32.ofNat (i + 1)).toNat = (UInt32.ofNat (j + 1)).toNat :=
      congrArg UInt32.toNat hij
    rw [UInt32.toNat_ofNat', UInt32.toNat_ofNat', Nat.mod_eq_of_lt (by omega),
      Nat.mod_eq_of_lt (by omega)] at hnat
    exact Nat.succ.inj hnat
  cursor := by
    show (1 : UInt32).toNat < 2 ^ 24
    decide

/-- Once all ids have been taken in turn and the last connection has ended, the id 0 is free, but
the search from 1 on stops before it. -/
theorem connIds_allocated_crowded :
    (withIds 0xFFFFFF).Form ∧ ¬(withIds 0xFFFFFF).world.ConnIdUsed 0 ∧
      (sccpLbInstNextConnId (withIds 0xFFFFFF)).1 = -1 ∧ ¬(withIds 0xFFFFFF).Allocates := by
  have hlt : 0xFFFFFF < 2 ^ 24 := by decide
  generalize hn : 0xFFFFFF = n at hlt ⊢
  have hform := withIds_form hlt
  have hused := withIds_used hlt
  have hzero : (0 : ConnId) ∈ sccpConnIds := (by decide : (0 : ConnId).toNat < 2 ^ 24)
  have hfree : ¬(withIds n).world.ConnIdUsed 0 := fun h => absurd ((hused 0).mp h).1 (by decide)
  have hfirst : (withIds n).world.FirstFree 1 0 := by
    refine ⟨hzero, hfree, fun c hc hcfree => ?_⟩
    have hc0 : c = 0 := by
      have hc' : c.toNat < 2 ^ 24 := hc
      have hnot := mt (hused c).mpr hcfree
      apply UInt32.toNat_inj.mp
      show c.toNat = 0
      omega
    rw [hc0]
  have hmissed := sccpLbInstNextConnId_missed hform.peersListed hform.cursor hfirst
    (by decide : 0xFFFFFF ≤ ahead 1 0)
  have hrc : (sccpLbInstNextConnId (withIds n)).1 = -1 := congrArg Prod.fst hmissed
  refine ⟨hform, hfree, hrc, fun ha => ?_⟩
  exact hfree (ha.exhausted.mp hrc 0 hzero)

end OsmoSmlc
