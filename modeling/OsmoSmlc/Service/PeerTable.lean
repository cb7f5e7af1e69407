import OsmoSmlc.Service.PeerMoves

/-! The table of peers. An event adds at most one peer, under the address that it comes from
and only if no listed peer has this address. -/
namespace OsmoSmlc
open Osmo

/-- The peers with their addresses, and without their states. -/
abbrev PeerTable := List (PeerPtr × SccpAddr)

def World.peerTable (w : World) : PeerTable := w.lbPeers.map fun x => (x.ptr, x.peerAddr)

/-- The pointer that an address is found under. -/
def PeerTable.find (L : Libosmo) (t : PeerTable) (addr : SccpAddr) : Option PeerPtr :=
  (t.find? fun e => L.sccpAddrRiCmp addr e.2 = 0).map Prod.fst

/-- The address that the peer of an event is looked up by. -/
def Event.calling? : Event → Option SccpAddr
  | .scu (.nConnect _ addr l2) => if l2.length = 0 then none else some addr
  | .scu (.nUnitdata addr _) => some addr
  | _ => none

namespace Service

variable {L : Libosmo} {io : Io} {a a' b : Service} {addr : SccpAddr} {connId : ConnId} {m : Msg}
  {x : LbPeer} {i : Input}

def peerTable (a : Service) : PeerTable := a.lbPeers.map fun x => (x.ptr, x.peerAddr)

theorem peerTable_find : (a.lbPeers.find? fun x => L.sccpAddrRiCmp addr x.peerAddr = 0).map LbPeer.ptr
    = a.peerTable.find L addr := by
  unfold peerTable PeerTable.find
  rw [List.find?_map, Option.map_map]
  rfl

/-- A peer is found under the addresses that match the one it is known by. -/
theorem find_iff {p : PeerPtr} {addr' : SccpAddr} (hri : L.RiCmpEquivalence) (h : a.WF)
    (hp : a.peerTable.find L addr = some p) :
    a.peerTable.find L addr' = some p ↔ L.sccpAddrRiCmp addr addr' = 0 := by
  rw [← peerTable_find] at hp ⊢
  obtain ⟨x, hx, rfl⟩ := Option.map_eq_some_iff.mp hp
  have hcmp : L.sccpAddrRiCmp addr x.peerAddr = 0 := by simpa using List.find?_some hx
  constructor
  · intro hp'
    obtain ⟨y, hy, hyx⟩ := Option.map_eq_some_iff.mp hp'
    have hxy : y = x := List.inj_on_of_nodup_map h.peerPtrs (List.mem_of_find?_eq_some hy)
      (List.mem_of_find?_eq_some hx) hyx
    have hcmp' : L.sccpAddrRiCmp addr' y.peerAddr = 0 := by simpa using List.find?_some hy
    exact hri.trans _ _ _ hcmp (hri.symm _ _ (hxy ▸ hcmp'))
  · intro heq
    have hsame : a.lbPeers.find? (fun y => L.sccpAddrRiCmp addr' y.peerAddr = 0)
        = a.lbPeers.find? fun y => L.sccpAddrRiCmp addr y.peerAddr = 0 := by
      congr 1
      funext y
      refine decide_eq_decide.mpr ⟨fun hy => ?_, fun hy => ?_⟩
      · exact hri.trans _ _ _ heq hy
      · exact hri.trans _ _ _ (hri.symm _ _ heq) hy
    exact (congrArg (Option.map LbPeer.ptr) hsame).trans hp

theorem peerTable_congr (h : b.lbPeers = a.lbPeers) : b.peerTable = a.peerTable := by
  rw [peerTable, h, peerTable]

/-- Entering a state keeps a peer in its place. -/
theorem peerTable_setPeer {p : PeerPtr} {st : LbPeerState} :
    (a.setPeer p st).peerTable = a.peerTable := by
  show (KeyedList.update LbPeer.ptr a.lbPeers p _).map _ = a.lbPeers.map _
  rw [KeyedList.update, List.map_map]
  refine List.map_congr_left fun y _ => ?_
  show (LbPeer.ptr (if y.ptr = p then _ else y), LbPeer.peerAddr (if y.ptr = p then _ else y)) = _
  split
  · rfl
  · rfl

/-- How the table grows from `a` to `a'` on behalf of an address. -/
inductive Grows (L : Libosmo) (a : Service) (addr : SccpAddr) (a' : Service) : Prop
  | known (h : a'.peerTable = a.peerTable) (hfind : (a.peerTable.find L addr).isSome)
  | added (hnew : ∀ x ∈ a.lbPeers, L.sccpAddrRiCmp addr x.peerAddr ≠ 0)
      (h : a'.peerTable = (a.next.peer, addr) :: a.peerTable)

theorem Grows.congr (h : Grows L a addr b) (hb : a'.peerTable = b.peerTable) : Grows L a addr a' := by
  cases h with
  | known h hfind => exact .known (hb.trans h) hfind
  | added hnew h => exact .added hnew (hb.trans h)

theorem peer_grows : Grows L a addr (a.peer L addr).2 := by
  unfold peer
  split
  · rename_i x hx
    refine .known rfl ?_
    rw [← peerTable_find, hx]
    rfl
  · rename_i hnone
    exact .added (fun x hx => by simpa using List.find?_eq_none.mp hnone x hx) rfl

theorem connectTo_peerTable (ho : a.connectTo L io x connId m = .ok a') :
    a'.peerTable = a.peerTable := by
  unfold connectTo at ho
  split at ho
  · cases ho
    exact peerTable_setPeer
  · cases ho
    exact peerTable_setPeer
  · cases m with
    | ignored =>
      cases ho
      rfl
    | request pdu =>
      cases ho
      exact peerTable_congr openSession_lbPeers
    | ending k => cases ho
  · cases ho
    rfl

theorem unitdata_grows {l2 : List UInt8} {msg : MsgbPtr} :
    Grows L a addr (a.unitdata L io addr l2 msg) := by
  refine peer_grows.congr ?_
  unfold unitdata
  cases L.bssmapLeMsgt l2 with
  | reset => exact peerTable_setPeer
  | resetAck =>
    dsimp only
    split
    · exact peerTable_setPeer
    · rfl
  | other msgt => rfl

/-- An N-CONNECT on an id that is in use does not reach the table. -/
theorem connect_grows (ho : a.connect L io connId addr m = .ok a') :
    a'.peerTable = a.peerTable ∨ Grows L a addr a' := by
  unfold connect at ho
  split at ho
  · cases ho
    exact .inl rfl
  · have ht := connectTo_peerTable ho
    exact .inr (peer_grows.congr ht)

/-- Connectionless messages always make their peer known. -/
theorem step_unitdata_grows {l2 : List UInt8} (hev : i.ev = .scu (.nUnitdata addr l2))
    (ho : a.step L i = .ok a') : Grows L a addr a' := by
  obtain ⟨ev, io⟩ := i
  cases hev
  cases ho
  have hg : Grows L (a.setNet a.net.takeMsgb) addr
      ((a.setNet a.net.takeMsgb).unitdata L io addr l2 a.net.nextMsgb) := unitdata_grows
  cases hg with
  | known h hfind => exact .known h hfind
  | added hnew h => exact .added hnew h

theorem step_peerTable (ho : a.step L i = .ok a') : a'.peerTable = a.peerTable ∨
    ∃ addr, i.ev.calling? = some addr ∧ Grows L a addr a' := by
  obtain ⟨ev, io⟩ := i
  cases ev with
  | scu prim =>
    cases prim with
    | nConnect connId addr l2 =>
      simp only [step, handle, rxPrim] at ho
      by_cases hlen : l2.length = 0
      · rw [if_pos hlen] at ho
        cases ho
        exact .inl rfl
      · rw [if_neg hlen] at ho
        split at ho
        · rename_i c hc
          cases ho
          rcases connect_grows hc with hsame | hg
          · exact .inl hsame
          · refine .inr ⟨addr, if_neg hlen, ?_⟩
            cases hg with
            | known h hfind => exact .known h hfind
            | added hnew h => exact .added hnew h
        · cases ho
    | nUnitdata addr l2 => exact .inr ⟨addr, rfl, step_unitdata_grows rfl ho⟩
    | nData connId l2 =>
      cases ho
      exact .inl (peerTable_congr data_lbPeers)
    | nDisconnect connId l2 =>
      cases ho
      refine .inl ?_
      split
      · exact peerTable_congr data_lbPeers
      · rfl
    | unsupported l2 =>
      cases ho
      exact .inl rfl
  | locReqTimer r =>
    cases ho
    refine .inl ?_
    unfold locReqTimeout
    split
    · rfl
    · rfl
  | lbPeerTimer p =>
    cases ho
    refine .inl ?_
    unfold lbPeerTimeout
    split
    · split
      · exact peerTable_setPeer
      · rfl
    · rfl
  | vty cmd =>
    cases ho
    exact .inl rfl

/-- No peer is ever taken off the table. -/
theorem step_peerTable_mem {e : PeerPtr × SccpAddr} (ho : a.step L i = .ok a')
    (he : e ∈ a.peerTable) : e ∈ a'.peerTable := by
  rcases step_peerTable ho with hsame | ⟨addr, -, hg⟩
  · exact hsame ▸ he
  · cases hg with
    | known h hfind => exact h ▸ he
    | added hnew h => exact h ▸ List.mem_cons_of_mem _ he

/-- An address that is known keeps its peer. -/
theorem step_peerTable_find {p : PeerPtr} (hri : L.RiCmpEquivalence) (ho : a.step L i = .ok a')
    (hp : a.peerTable.find L addr = some p) : a'.peerTable.find L addr = some p := by
  obtain ⟨e, he, hep⟩ := Option.map_eq_some_iff.mp hp
  have hmem : e ∈ a.peerTable := List.mem_of_find?_eq_some he
  have hcmp : L.sccpAddrRiCmp addr e.2 = 0 := by simpa using List.find?_some he
  rcases step_peerTable ho with hsame | ⟨addr', -, hg⟩
  · rwa [hsame]
  · cases hg with
    | known h hfind => rwa [h]
    | added hnew h =>
      obtain ⟨y, hy, rfl⟩ := List.mem_map.mp hmem
      have hne : ¬L.sccpAddrRiCmp addr addr' = 0 := by
        intro heq
        exact hnew y hy (hri.trans addr' addr y.peerAddr (hri.symm addr addr' heq) hcmp)
      rw [h, PeerTable.find, List.find?_cons_of_neg (by simpa using hne)]
      exact hp

/-- A pointer that was given out before is found under no new address. -/
theorem step_peerTable_find_old {p : PeerPtr} (ho : a.step L i = .ok a') (hp : p < a.next.peer)
    (hfind : a'.peerTable.find L addr = some p) : a.peerTable.find L addr = some p := by
  rcases step_peerTable ho with hsame | ⟨addr', -, hg⟩
  · rwa [hsame] at hfind
  · cases hg with
    | known h hknown => rwa [h] at hfind
    | added hnew h =>
      rw [h, PeerTable.find, List.find?_cons] at hfind
      split at hfind
      · cases hfind
        exact absurd hp (Nat.lt_irrefl _)
      · exact hfind

end Service
end OsmoSmlc
