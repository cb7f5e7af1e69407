import OsmoSmlc.Service.Record

/-! What the process keeps under each address while it provides a service: connections,
requests, peers and the tokens of subscribers. -/
namespace OsmoSmlc
open Osmo

/-- How many tokens of a subscriber are out. -/
def World.tokens (w : World) (p : SubscrPtr) : Int :=
  match w.subscrs.subscr? p with
  | some s => s.useCount.total
  | none => 0

/-- The peer that an address belongs to, listed or about to be created. -/
def World.peerOf (L : Libosmo) (w : World) (addr : SccpAddr) : LbPeer :=
  match w.lbPeerFind L addr with
  | some x => x
  | none => ⟨w.next.peer, ⟨.waitRxReset, false, false⟩, addr⟩

def World.PeerIn (p : PeerPtr) (st : LbPeerState) (w : World) : Prop :=
  ∃ x, w.lbPeer? p = some x ∧ x.fi.state = st

namespace Service

variable {L : Libosmo} {a : Service} {s : Session} {p : PeerPtr} {st : LbPeerState}
  {addr : SccpAddr}

theorem world_lbConn? (h : a.WF) (hs : s ∈ a.sessions) :
    a.world.lbConn? s.conn = some s.lbConn := (world_shows h).lbConn? h hs

theorem world_locReq? (h : a.WF) (hs : s ∈ a.sessions) : a.world.locReq? s.req = some s.locReq := by
  have hnd : (a.world.locReqs.map SmlcLocReq.ptr).Nodup := by
    show ((a.sessions.map Session.locReq).map SmlcLocReq.ptr).Nodup
    rw [List.map_map]
    exact h.reqs
  exact KeyedList.lookup_of_mem hnd (List.mem_map_of_mem hs)

theorem world_locReq?_none {r : ReqPtr} :
    a.world.locReq? r = none ↔ ∀ s ∈ a.sessions, s.req ≠ r := by
  simp [World.locReq?, KeyedList.lookup_eq_none_iff, world, Session.locReq]

/-- Every token of a subscriber is held by a session. -/
theorem world_tokens (h : a.WF) (p : SubscrPtr) : a.world.tokens p = refs a.sessions p := by
  have hlook : a.world.subscrs.subscr? p
      = (KeyedList.lookup Subscr.ptr a.subscrs p).map (Subscr.smlcSubscr a.sessions) :=
    KeyedList.lookup_map (Subscr.smlcSubscr a.sessions) a.subscrs
  unfold World.tokens
  rw [hlook]
  cases hx : KeyedList.lookup Subscr.ptr a.subscrs p with
  | some x =>
    have hp : x.ptr = p := (KeyedList.lookup_some_mem hx).2
    simp [Subscr.smlcSubscr, UseCount.total, hp]
  | none =>
    have hzero : refs a.sessions p = 0 := by
      by_contra hne
      obtain ⟨s, hs, hsp⟩ := refs_pos_iff.mp (Nat.pos_of_ne_zero hne)
      obtain ⟨x, hmem, hxp⟩ := h.subscrListed s hs p hsp
      exact KeyedList.lookup_eq_none_iff.mp hx x hmem hxp
    simp [hzero]

def peerState (p : PeerPtr) (a : Service) : Option LbPeerState :=
  (KeyedList.lookup LbPeer.ptr a.lbPeers p).map fun x => x.fi.state

theorem peerOf_world : a.world.peerOf L addr = (a.peer L addr).1 := by
  unfold World.peerOf peer
  have hfind : a.world.lbPeerFind L addr
      = a.lbPeers.find? fun x => L.sccpAddrRiCmp addr x.peerAddr = 0 := rfl
  rw [hfind]
  cases a.lbPeers.find? fun x => L.sccpAddrRiCmp addr x.peerAddr = 0 with
  | some x => rfl
  | none => rfl

theorem peerIn_world : a.world.PeerIn p st ↔ a.peerState p = some st :=
  Option.map_eq_some_iff.symm

end Service
end OsmoSmlc
