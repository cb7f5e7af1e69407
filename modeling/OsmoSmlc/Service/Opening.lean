import OsmoSmlc.Service.Messages

/-! The first message of a connection: the connection is created for it, holds a token
while it is handled, and stays only if a request is pending afterwards. -/
namespace OsmoSmlc
open Osmo

section Tokens

variable {close : ConnPtr → M Unit} {w w' : World} {c : ConnPtr} {x : LbConn} {u : Use}

/-- A connection with its use count changed by `d`. -/
def LbConn.changed (u : Use) (d : Int) (x : LbConn) : LbConn :=
  { x with useCount := x.useCount.change u d }

theorem LbConn.changed_ptr (u : Use) (d : Int) (x : LbConn) : (x.changed u d).ptr = x.ptr := rfl

theorem lbConn?_changed (d : Int) (hx : w.lbConn? c = some x) :
    (w.updConn c (LbConn.changed u d)).lbConn? c = some (x.changed u d) := by
  rw [World.lbConn?_updConn (LbConn.changed_ptr u d), hx]
  rfl

theorem lbConnGet_keep (hx : w.lbConn? c = some x)
    (hc : 0 ≤ (x.useCount.change u 1).count u) (ht : x.useCount.total + 1 ≠ 0) :
    lbConnGet close c u w = .ok ((), w.updConn c (LbConn.changed u 1)) := by
  have htot : (x.changed u 1).useCount.total ≠ 0 := by
    show (x.useCount.change u 1).total ≠ 0
    rw [UseCount.total_change]
    exact ht
  have hgp : lbConnGetPut close c u 1 w = .ok (0, w.updConn c (LbConn.changed u 1)) := by
    rw [lbConnGetPut, Prog.bind_ok (setConn_apply _ _)]
    exact lbConnUseCb_keep (lbConn?_changed 1 hx) hc htot
  rw [lbConnGet, Prog.bind_ok hgp]
  rfl

/-- The new connection comes first in its list, and holds the token. -/
theorem lbConnAlloc_ok (w : World) (p : PeerPtr) (connId : ConnId) (u : Use) :
    lbConnAlloc p connId u w = .ok (w.next.conn,
      (w.addConn ⟨w.next.conn, [], some p, connId, false, none, none⟩).updConn w.next.conn
        (LbConn.changed u 1)) := by
  let x : LbConn := ⟨w.next.conn, [], some p, connId, false, none, none⟩
  have hget : lbConnGet lbConnClose x.ptr u (w.addConn x)
      = .ok ((), (w.addConn x).updConn x.ptr (LbConn.changed u 1)) :=
    lbConnGet_keep World.lbConn?_addConn (by simp [x, UseCount.change, UseCount.count])
      (by simp [x])
  rw [lbConnAlloc, Prog.bind_ok (Prog.read_apply _ _), Prog.bind_ok (Prog.modify_apply _ _)]
  exact (Prog.bind_ok hget).trans rfl

theorem lbConnPut_keep (hx : w.lbConn? c = some x)
    (hc : 0 ≤ (x.useCount.change u (-1)).count u) (ht : x.useCount.total - 1 ≠ 0) :
    lbConnPut close c u w = .ok ((), w.updConn c (LbConn.changed u (-1))) := by
  have htot : (x.changed u (-1)).useCount.total ≠ 0 := by
    show (x.useCount.change u (-1)).total ≠ 0
    rw [UseCount.total_change]
    omega
  have hgp : lbConnGetPut close c u (-1) w = .ok (0, w.updConn c (LbConn.changed u (-1))) := by
    rw [lbConnGetPut, Prog.bind_ok (setConn_apply _ _)]
    exact lbConnUseCb_keep (lbConn?_changed (-1) hx) hc htot
  rw [lbConnPut, Prog.bind_ok hgp]
  rfl

theorem lbConnPut_close (hx : w.lbConn? c = some x)
    (hc : 0 ≤ (x.useCount.change u (-1)).count u) (ht : x.useCount.total = 1)
    (hclose : close c (w.updConn c (LbConn.changed u (-1))) = .ok ((), w')) :
    lbConnPut close c u w = .ok ((), w') := by
  have htot : (x.changed u (-1)).useCount.total = 0 := by
    show (x.useCount.change u (-1)).total = 0
    rw [UseCount.total_change, ht]
    rfl
  have hgp : lbConnGetPut close c u (-1) w = .ok (0, w') := by
    rw [lbConnGetPut, Prog.bind_ok (setConn_apply _ _)]
    exact lbConnUseCb_close (lbConn?_changed (-1) hx) hc htot hclose
  rw [lbConnPut, Prog.bind_ok hgp]
  rfl

end Tokens

theorem World.addReq_updReq {w : World} {q : SmlcLocReq} {f : SmlcLocReq → SmlcLocReq}
    (hfresh : ∀ y ∈ w.locReqs, y.ptr ≠ q.ptr) (hf : (f q).ptr = q.ptr) :
    (w.addReq q).updReq q.ptr f = w.addReq (f q) := by
  simp only [World.addReq, World.updReq, KeyedList.update_cons_self q hfresh, hf]

/-- A world with a new connection in it, and other subscribers and network side. -/
def World.opened (w : World) (x : LbConn) (t : Subscribers Use) (n : Net) : World :=
  ((w.addConn x).setSubscrs t).setNet n

section Opened

variable {w : World} {x : LbConn} {t : Subscribers Use} {n : Net} {g : LbConn → LbConn} {u : Use}
  {close : ConnPtr → M Unit}

theorem World.opened_lbConn? : (w.opened x t n).lbConn? x.ptr = some x := World.lbConn?_addConn

theorem World.opened_updConn (hfresh : ∀ y ∈ w.lbConns, y.ptr ≠ x.ptr)
    (hg : (g x).ptr = x.ptr) : (w.opened x t n).updConn x.ptr g = w.opened (g x) t n := by
  simp only [World.opened, World.addConn, World.updConn, World.setSubscrs, World.setNet,
    KeyedList.update_cons_self x hfresh, hg]

theorem World.opened_delConn (hfresh : ∀ y ∈ w.lbConns, y.ptr ≠ x.ptr) :
    (w.opened x t n).delConn x.ptr
      = (({ w with next.conn := x.ptr + 1 } : World).setSubscrs t).setNet n := by
  simp only [World.opened, World.addConn, World.delConn, World.setSubscrs, World.setNet,
    KeyedList.remove_cons_self x hfresh]

theorem lbConnGet_opened (hfresh : ∀ y ∈ w.lbConns, y.ptr ≠ x.ptr)
    (hc : 0 ≤ (x.useCount.change u 1).count u) (ht : x.useCount.total + 1 ≠ 0) :
    lbConnGet close x.ptr u (w.opened x t n) = .ok ((), w.opened (x.changed u 1) t n) := by
  rw [lbConnGet_keep World.opened_lbConn? hc ht, World.opened_updConn hfresh rfl]

theorem lbConnPut_opened (hfresh : ∀ y ∈ w.lbConns, y.ptr ≠ x.ptr)
    (hc : 0 ≤ (x.useCount.change u (-1)).count u) (ht : x.useCount.total - 1 ≠ 0) :
    lbConnPut close x.ptr u (w.opened x t n) = .ok ((), w.opened (x.changed u (-1)) t n) := by
  rw [lbConnPut_keep World.opened_lbConn? hc ht, World.opened_updConn hfresh rfl]

end Opened

namespace Service

variable {a : Service} {L : Libosmo} {p : PeerPtr} {connId : ConnId} {pdu : PerformLocReq}

theorem WF.conn_fresh (h : a.WF) : ∀ y ∈ a.world.lbConns, y.ptr ≠ a.next.conn := by
  intro y hy
  obtain ⟨s, hs, rfl⟩ := List.mem_map.mp hy
  exact Nat.ne_of_lt (h.connBound s hs)

theorem WF.req_fresh (h : a.WF) : ∀ y ∈ a.world.locReqs, y.ptr ≠ a.next.req := by
  intro y hy
  obtain ⟨s, hs, rfl⟩ := List.mem_map.mp hy
  exact Nat.ne_of_lt (h.reqBound s hs)

/-- The subscribers once the new session is bound. -/
def newSubscrs (L : Libosmo) (a : Service) (s : Session) : Subscribers Use :=
  ⟨(a.bindRequest L s.pdu).2.subscrs.map (Subscr.smlcSubscr (s :: a.sessions)),
    (a.bindRequest L s.pdu).2.nextSubscr⟩

theorem withSession_world (n : Net) : (a.withSession L p connId pdu n).world =
    (a.world.addReq (a.newSession L p connId pdu).locReq).opened
      (a.newSession L p connId pdu).lbConn (newSubscrs L a (a.newSession L p connId pdu)) n := by
  ext1
  · show (a.bindRequest L pdu).2.lbPeers = a.lbPeers
    rw [bindRequest_frame]
  · rfl
  · rfl
  · rfl
  · show (a.bindRequest L pdu).2.cellLocations = a.cellLocations
    rw [bindRequest_frame]
  · rfl
  · rfl

end Service

/-- A new connection while its first message is handled. -/
def firstConn (a : Service) (p : PeerPtr) (connId : ConnId) (subscr : Option SubscrPtr) :
    LbConn where
  ptr := a.next.conn
  useCount := [(.lbPeerStReady, 1)]
  lbPeer := some p
  sccpConnId := connId
  closing := false
  smlcSubscr := subscr
  smlcLocReq := none

section Start

variable (L : Libosmo) (io : Io) {a : Service} {p : PeerPtr} {connId : ConnId} {n : Net}
  {pdu : PerformLocReq}

theorem lbConnCreateIncoming_fresh (h : a.WF) :
    lbConnCreateIncoming p connId .lbPeerStReady a.world
      = .ok (a.next.conn, a.world.opened (firstConn a p connId none) a.world.subscrs a.net) := by
  have hopened := World.opened_updConn (x := ⟨a.next.conn, [], some p, connId, false, none, none⟩)
    (t := a.world.subscrs) (n := a.net) (g := LbConn.changed .lbPeerStReady 1) h.conn_fresh rfl
  exact (lbConnAlloc_ok a.world p connId .lbPeerStReady).trans (congrArg _ (congrArg _ hopened))

/-- The search by the connection's own subscriber, before it is set, meets the new
connection itself. -/
theorem lbConnFindBySmlcSubscr_first {t : Subscribers Use} (h : a.WF) :
    lbConnFindBySmlcSubscr none .smlcLocReqStart
        (a.world.opened (firstConn a p connId none) t n)
      = .ok (some a.next.conn,
        a.world.opened ((firstConn a p connId none).changed .smlcLocReqStart 1) t n) := by
  let x := firstConn a p connId none
  have hhead : ((a.world.opened x t n).lbConns.find? fun y => y.smlcSubscr = none) = some x := by
    simp [x, firstConn, World.opened]
  have hget : lbConnGet lbConnClose x.ptr .smlcLocReqStart (a.world.opened x t n) = .ok ((), _) :=
    lbConnGet_opened h.conn_fresh Int.one_nonneg (by simp [x, firstConn, UseCount.total])
  rw [lbConnFindBySmlcSubscr, Prog.bind_ok (Prog.read_apply _ _), hhead]
  exact (Prog.bind_ok hget).trans rfl

theorem smlcLocReqStartSubscr_first (p : PeerPtr) (connId : ConnId) (n : Net)
    {imsi : MobileIdentity} {s : Session} (h : a.WF)
    (hs : s.subscr = some (a.bind L imsi).1) :
    smlcLocReqStartSubscr L a.next.conn imsi
        (a.world.opened (firstConn a p connId none) a.world.subscrs n)
      = .ok (0, a.world.opened (firstConn a p connId s.subscr)
        ⟨(a.bind L imsi).2.subscrs.map (Subscr.smlcSubscr (s :: a.sessions)),
          (a.bind L imsi).2.nextSubscr⟩ n) := by
  obtain ⟨t', t'', h1, h2, h3⟩ := Service.smlcSubscrFindOrCreate_bind (L := L) h hs
  let x := firstConn a p connId none
  let x' := (firstConn a p connId s.subscr).changed .smlcLocReqStart 1
  let t : Subscribers Use := ⟨(a.bind L imsi).2.subscrs.map (Subscr.smlcSubscr (s :: a.sessions)),
    (a.bind L imsi).2.nextSubscr⟩
  have hset : (Prog.ifTrue x.smlcSubscr.isNone do
        setConn a.next.conn fun y => { y with smlcSubscr := some (a.bind L imsi).1 }
        onSubscrs (smlcSubscrGet (a.bind L imsi).1 .lbConn) : M Unit)
      (a.world.opened (x.changed .smlcLocReqStart 1) t' n) = .ok ((), a.world.opened x' t'' n) := by
    have hupd := World.opened_updConn (w := a.world) (x := x.changed .smlcLocReqStart 1) (t := t')
      (n := n) (g := fun y => { y with smlcSubscr := some (a.bind L imsi).1 }) h.conn_fresh rfl
    have hx' : ({ x.changed .smlcLocReqStart 1 with smlcSubscr := some (a.bind L imsi).1 } : LbConn)
        = x' := by rw [← hs]; rfl
    rw [hx'] at hupd
    refine (Prog.bind_ok (setConn_apply _ _)).trans ?_
    rw [show a.next.conn = (x.changed .smlcLocReqStart 1).ptr from rfl, hupd]
    exact onSubscrs_ok h2
  have hput : lbConnPut lbConnClose x'.ptr .smlcLocReqStart (a.world.opened x' t n)
      = .ok ((), a.world.opened (firstConn a p connId s.subscr) t n) :=
    lbConnPut_opened h.conn_fresh (Int.le_refl 0)
      (by simp [x', LbConn.changed, firstConn, UseCount.total])
  rw [smlcLocReqStartSubscr]
  apply (Prog.bind_ok (derefConn_ok (World.opened_lbConn? (x := x)))).trans
  apply (Prog.bind_ok (onSubscrs_ok (w := a.world.opened x a.world.subscrs n) h1)).trans
  rw [if_neg (by simp [x, firstConn])]
  apply (Prog.bind_ok (lbConnFindBySmlcSubscr_first h)).trans
  apply (Prog.bind_ok hset).trans
  have hsame : (Prog.ifSome (some a.next.conn) fun other =>
      Prog.ifTrue (other ≠ a.next.conn) (lbConnClose other)) (a.world.opened x' t'' n)
      = .ok ((), a.world.opened x' t'' n) := by simp
  apply (Prog.bind_ok hsame).trans
  apply (Prog.bind_ok (onSubscrs_ok (w := a.world.opened x' t'' n) h3)).trans
  exact (Prog.bind_ok hput).trans rfl

/-- The connection of a new session, still held for the message that opened it. -/
def Session.heldConn (s : Session) : LbConn :=
  { s.lbConn with useCount := [(.lbPeerStReady, 1), (.smlcLocReq, 1)] }

/-- The objects on which the state machine of a new request enters WAIT_TA. -/
def startWorld (a : Service) (s : Session) (t : Subscribers Use) (n : Net) : World :=
  (a.world.addReq s.locReq).opened s.heldConn t n

theorem smlcLocReqStartFsm_first {t : Subscribers Use} (h : a.WF) :
    smlcLocReqStartFsm L io a.next.conn pdu
        (a.world.opened (firstConn a p connId (a.bindRequest L pdu).1) t n)
      = (smlcLocReqWaitTaOnenter L io a.next.req >>= fun _ =>
          emit (.locReqAccepted a.next.req a.next.conn pdu))
        (startWorld a (a.newSession L p connId pdu) t n) := by
  let s := a.newSession L p connId pdu
  let x := firstConn a p connId s.subscr
  let q : SmlcLocReq := ⟨s.req, ⟨.init, false, false⟩, none, default, false, 0, default, none⟩
  let q' : SmlcLocReq := { q with lbConn := some s.conn, req := pdu, latestCellId := pdu.cellId }
  let x' : LbConn := { x with smlcLocReq := some s.req }
  have halloc : smlcLocReqAlloc (a.world.opened x t n)
      = .ok (s.req, (a.world.addReq q).opened x t n) := rfl
  have hreq : setReq s.req (fun y => { y with
        lbConn := some s.conn, req := pdu, latestCellId := pdu.cellId })
      ((a.world.addReq q).opened x t n) = .ok ((), (a.world.addReq q').opened x t n) := by
    have hupd := World.addReq_updReq (w := a.world) (q := q) (f := fun y => { y with
      lbConn := some s.conn, req := pdu, latestCellId := pdu.cellId }) h.req_fresh rfl
    exact congrArg (fun w => Except.ok ((), World.opened w x t n)) hupd
  have hconn : setConn s.conn (fun y => { y with smlcLocReq := some s.req })
      ((a.world.addReq q').opened x t n) = .ok ((), (a.world.addReq q').opened x' t n) :=
    congrArg (fun w => Except.ok ((), w)) (World.opened_updConn (x := x)
      (g := fun y => { y with smlcLocReq := some s.req }) h.conn_fresh rfl)
  have hget : lbConnGet lbConnClose s.conn .smlcLocReq ((a.world.addReq q').opened x' t n)
      = .ok ((), (a.world.addReq q').opened s.heldConn t n) :=
    lbConnGet_opened (x := x') h.conn_fresh Int.one_nonneg
      (by simp [x', x, firstConn, UseCount.total])
  have henter : ((a.world.addReq q').opened s.heldConn t n).updReq s.req (SmlcLocReq.enter .waitTa)
      = startWorld a s t n := by
    have hupd := World.addReq_updReq (w := a.world) (q := q') (f := SmlcLocReq.enter .waitTa)
      h.req_fresh rfl
    exact congrArg (fun w => World.opened w s.heldConn t n) hupd
  have hq' : ((a.world.addReq q').opened s.heldConn t n).locReq? s.req = some q' :=
    World.locReq?_addReq (x := q')
  rw [smlcLocReqStartFsm]
  apply (Prog.bind_ok halloc).trans
  apply (Prog.bind_ok hreq).trans
  apply (Prog.bind_ok hconn).trans
  apply (Prog.bind_ok hget).trans
  rw [Prog.bind_apply, smlcLocReqFsmStateChg_permitted hq' rfl rfl, henter]
  rfl

theorem startWorld_onLine {t : Subscribers Use} {s : Session} (h : a.WF)
    (hp : ∃ x ∈ a.lbPeers, x.ptr = s.peer ∧ x.fi.state = .ready) :
    OnLine (startWorld a s t n) s where
  conn := ⟨s.heldConn, World.opened_lbConn? (x := s.heldConn), rfl, rfl, rfl⟩
  peer := by
    obtain ⟨x, hx, hxp, hst⟩ := hp
    refine ⟨x, ?_, hst, ?_⟩
    · rw [← hxp]
      exact (Service.world_shows h).lbPeer? h hx
    · rw [h.peerFi x hx]

theorem World.opened_connPeerState {x : LbConn} {t : Subscribers Use} (h : a.WF)
    (hx : x.lbPeer = some p) (hp : ∃ y ∈ a.lbPeers, y.ptr = p ∧ y.fi.state = .ready) :
    (a.world.opened x t n).connPeerState x.ptr = some .ready := by
  obtain ⟨y, hy, rfl, hst⟩ := hp
  have hpeer : (a.world.opened x t n).lbPeer? y.ptr = some y :=
    (Service.world_shows h).lbPeer? h hy
  simp [World.connPeerState, World.opened_lbConn?, hx, hpeer, hst]

/-- A request that names an IMSI is bound to the subscriber with it, any other to none. -/
theorem smlcLocReqStart_binds (p : PeerPtr) (connId : ConnId) (pdu : PerformLocReq) (n : Net)
    (h : a.WF) :
    ∃ binds, smlcLocReqStartBinds L a.next.conn pdu.imsi
        (a.world.opened (firstConn a p connId none) a.world.subscrs n)
      = .ok (binds, a.world.opened (firstConn a p connId none) a.world.subscrs n) ∧
      (if binds then smlcLocReqStartSubscr L a.next.conn pdu.imsi else pure 0)
        (a.world.opened (firstConn a p connId none) a.world.subscrs n)
      = .ok (0, a.world.opened (firstConn a p connId (a.bindRequest L pdu).1)
        (Service.newSubscrs L a (a.newSession L p connId pdu)) n) := by
  let s := a.newSession L p connId pdu
  by_cases ht : pdu.imsi.type = .imsi
  · have hb := Service.bindRequest_imsi (a := a) (L := L) ht
    have hs : s.subscr = some (a.bind L pdu.imsi).1 := congrArg Prod.fst hb
    refine ⟨true, ?_, ?_⟩
    · rw [smlcLocReqStartBinds, if_pos ht]
      exact Prog.bind_ok (derefConn_ok (World.opened_lbConn? (x := firstConn a p connId none)))
    · have hsub := smlcLocReqStartSubscr_first L p connId n h hs
      have hnew : Service.newSubscrs L a s
          = ⟨(a.bind L pdu.imsi).2.subscrs.map (Subscr.smlcSubscr (s :: a.sessions)),
            (a.bind L pdu.imsi).2.nextSubscr⟩ := by
        unfold Service.newSubscrs
        rw [show s.pdu = pdu from rfl, hb]
      rw [if_pos rfl, hsub, ← hnew]
      rfl
  · have hb := Service.bindRequest_other (a := a) (L := L) ht
    refine ⟨false, ?_, ?_⟩
    · rw [smlcLocReqStartBinds, if_neg ht]
      rfl
    · have hs : s.subscr = none := congrArg Prod.fst hb
      have hsame : Subscr.smlcSubscr (s :: a.sessions) = Subscr.smlcSubscr a.sessions := by
        funext y
        simp [Subscr.smlcSubscr, refs_cons, hs]
      have ht : Service.newSubscrs L a s = a.world.subscrs := by
        unfold Service.newSubscrs
        rw [hsame]
        simp only [s, Service.newSession, hb]
        rfl
      rw [if_neg Bool.false_ne_true, ht, hb]
      rfl

/-- A request on a new connection is always accepted. -/
theorem smlcLocReqStart_first (h : a.WF)
    (hp : ∃ y ∈ a.lbPeers, y.ptr = p ∧ y.fi.state = .ready) :
    smlcLocReqStart L io a.next.conn pdu
        (a.world.opened (firstConn a p connId none) a.world.subscrs n)
      = (do
          smlcLocReqWaitTaOnenter L io a.next.req
          emit (.locReqAccepted a.next.req a.next.conn pdu)
          return 0 : M Int)
        (startWorld a (a.newSession L p connId pdu)
          (Service.newSubscrs L a (a.newSession L p connId pdu))
          (n.emit (.locReqRx a.next.conn (some .ready))).countRequest) := by
  let s := a.newSession L p connId pdu
  let x := firstConn a p connId none
  let t := Service.newSubscrs L a s
  let n1 := (n.emit (.locReqRx a.next.conn (some .ready))).countRequest
  have hx : (a.world.opened x a.world.subscrs n1).lbConn? a.next.conn = some x :=
    World.opened_lbConn? (x := x)
  have hstate : (a.world.opened x a.world.subscrs n).connPeerState a.next.conn = some .ready :=
    World.opened_connPeerState (x := x) h rfl hp
  have hfsm : smlcLocReqStartFsm L io a.next.conn pdu
      (a.world.opened (firstConn a p connId s.subscr) t n1) = _ := smlcLocReqStartFsm_first L io h
  obtain ⟨binds, hb, hsub⟩ := smlcLocReqStart_binds L p connId pdu n1 h
  rw [smlcLocReqStart, Prog.bind_ok (Prog.read_apply _ _), hstate, Prog.bind_ok (emit_apply _)]
  refine (Prog.bind_ok (onNet_apply _)).trans ?_
  apply (Prog.bind_ok (derefConn_ok hx)).trans
  rw [if_neg (by simp [x, firstConn])]
  apply (Prog.bind_ok hb).trans
  have hrest : (do
        smlcLocReqStartFsm L io a.next.conn pdu
        return 0 : M Int) (a.world.opened (firstConn a p connId s.subscr) t n1)
      = (do
        smlcLocReqWaitTaOnenter L io a.next.req
        emit (.locReqAccepted a.next.req a.next.conn pdu)
        return 0 : M Int) (startWorld a s t n1) := by
    rw [Prog.bind_apply, hfsm, Prog.bind_apply, Prog.bind_apply]
    cases smlcLocReqWaitTaOnenter L io a.next.req (startWorld a s t n1) <;> rfl
  cases binds with
  | true => exact (Prog.bind_ok hsub).trans hrest
  | false => exact (Prog.bind_ok hsub).trans hrest

section WaitTa

variable {s : Session} {t : Subscribers Use}

theorem startWorld_locReq? : (startWorld a s t n).locReq? s.req = some s.locReq :=
  World.locReq?_addReq (x := s.locReq)

/-- Without a timing advance in the request, the base station is asked for one. -/
theorem smlcLocReqWaitTaOnenter_pending (h : a.WF)
    (hp : ∃ x ∈ a.lbPeers, x.ptr = s.peer ∧ x.fi.state = .ready)
    (hta : ∀ ta, s.pdu.apdu ≠ some (.taLayer3 ta)) :
    smlcLocReqWaitTaOnenter L io s.req (startWorld a s t n) = .ok ((), startWorld a s t
      (n.sendCo io s (.connOrientedInfo .taRequest)).2) := by
  have hsend : smlcLocReqSend io s.locReq (.connOrientedInfo .taRequest) (startWorld a s t n)
      = .ok _ := smlcLocReqSend_onLine io (startWorld_onLine h hp) rfl
  rw [smlcLocReqWaitTaOnenter, Prog.bind_ok (derefReq_ok startWorld_locReq?)]
  have happ : s.locReq.req.apdu = s.pdu.apdu := rfl
  rw [happ]
  cases hap : s.pdu.apdu with
  | none => exact (Prog.bind_ok hsend).trans rfl
  | some apdu =>
    cases apdu with
    | taLayer3 ta => exact absurd hap (hta ta)
    | _ => exact (Prog.bind_ok hsend).trans rfl

/-- A timing advance in the request is answered at once; the message that opened the
connection still holds it. -/
theorem smlcLocReqWaitTaOnenter_answered {ta : UInt8} (h : a.WF)
    (hp : ∃ x ∈ a.lbPeers, x.ptr = s.peer ∧ x.fi.state = .ready)
    (hta : s.pdu.apdu = some (.taLayer3 ta)) :
    ∃ g : SmlcLocReq → SmlcLocReq, (∀ y, (g y).ptr = y.ptr) ∧
      (∀ y, (g y).fi.terminating = true) ∧
      smlcLocReqWaitTaOnenter L io s.req (startWorld a s t n)
        = .ok ((), (((startWorld a s t n).updReq s.req g).updConn s.conn LbConn.unlink).setNet
          ((n.gotTa L io a.cellLocations s s.pdu.cellId ta).emit (.locReqCleanup s.req))) := by
  let w := startWorld a s t n
  let g1 : SmlcLocReq → SmlcLocReq := fun x => { x with taPresent := true, ta := ta }
  let g2 : SmlcLocReq → SmlcLocReq := SmlcLocReq.enter .gotTa ∘ g1
  have hg1 : ∀ y, (g1 y).ptr = y.ptr := fun _ => rfl
  have hg2 : KeepsAlive s.locReq s.conn g2 := ⟨fun _ => rfl, rfl, rfl⟩
  have hq1 : (w.updReq s.req g1).locReq? s.req = some (g1 s.locReq) := by
    rw [World.locReq?_updReq hg1, startWorld_locReq?]
    rfl
  have hq2 : (w.updReq s.req g2).locReq? s.req = some (g2 s.locReq) := by
    rw [World.locReq?_updReq hg2.ptr, startWorld_locReq?]
    rfl
  have hupd : (w.updReq s.req g1).updReq s.req (SmlcLocReq.enter .gotTa) = w.updReq s.req g2 :=
    World.updReq_updReq fun _ => rfl
  obtain ⟨g, hg, hon⟩ := smlcLocReqGotTaOnenter_term L io
    ((startWorld_onLine (t := t) (n := n) h hp).updReq s.req g2) hq2 rfl rfl rfl rfl
  have hk := hg2.comp hg
  let n1 := n.gotTa L io a.cellLocations s s.pdu.cellId ta
  let w3 := (w.updReq s.req (g ∘ g2)).setNet n1
  have hcomp : (w.updReq s.req g2).updReq s.req g = w.updReq s.req (g ∘ g2) :=
    World.updReq_updReq hg2.ptr
  have hq3 : w3.locReq? s.req = some ((g ∘ g2) s.locReq) := by
    rw [World.locReq?_setNet, World.locReq?_updReq hk.ptr, startWorld_locReq?]
    rfl
  have hx3 : w3.lbConn? s.conn = some s.heldConn :=
    World.opened_lbConn? (w := a.world.addReq s.locReq) (x := s.heldConn) (t := t) (n := n)
  let mark := SmlcLocReq.mark ((g ∘ g2) s.locReq).fi
  let w4 := ((w3.updReq s.req mark).updConn s.conn LbConn.unlink).setNet
    (n1.emit (.locReqCleanup s.req))
  have hx4 : w4.lbConn? s.conn = some s.heldConn.unlink := by
    simp [w4, World.lbConn?_updConn LbConn.unlink_ptr, hx3]
  have huse : lbConnUseCb lbConnClose s.conn .smlcLocReq w4 = .ok (0, w4) :=
    lbConnUseCb_keep hx4 (Int.le_refl 0) Int.one_ne_zero
  have hterm := smlcLocReqTerm_unlink hq3 hk.terminating hk.lbConn hx3 rfl
    huse
  refine ⟨mark ∘ g ∘ g2, fun y => hk.ptr y, fun _ => rfl, ?_⟩
  rw [smlcLocReqWaitTaOnenter, Prog.bind_ok (derefReq_ok startWorld_locReq?)]
  have happ : s.locReq.req.apdu = some (.taLayer3 ta) := hta
  rw [happ]
  refine (Prog.bind_ok (setReq_apply _ _)).trans ?_
  rw [smlcLocReqFsmStateChg_permitted hq1 rfl rfl]
  have hon' : smlcLocReqGotTaOnenter L io s.req (w.updReq s.req g2)
      = smlcLocReqTerm lbConnClose s.req w3 := by
    rw [hon, hcomp]
    rfl
  rw [hupd, hon', hterm]
  have hmark : (w.updReq s.req (g ∘ g2)).updReq s.req mark = w.updReq s.req (mark ∘ g ∘ g2) :=
    World.updReq_updReq hk.ptr
  exact congrArg (fun v => Except.ok ((), ((World.setNet v n1).updConn s.conn
    LbConn.unlink).setNet (n1.emit (.locReqCleanup s.req)))) hmark

end WaitTa

end Start

/-- What a body leaves behind shows what the service has become, or both fail alike. -/
def Follows {α : Type} (x : Except Crash (α × World)) (b : Except Crash Service) : Prop :=
  match b with
  | .ok a => ∃ v w, x = .ok (v, w) ∧ Shows w a
  | .error e => x = .error e

section Ready

variable (L : Libosmo) (io : Io) {a : Service} {p : PeerPtr} {connId : ConnId}

/-- The end of the first message, where no request is pending. -/
theorem lbConnPut_first_idle {n : Net} (h : a.WF) :
    lbConnPut lbConnClose a.next.conn .lbPeerStReady
        (a.world.opened (firstConn a p connId none) a.world.subscrs n)
      = .ok ((), (({ a.world with next.conn := a.next.conn + 1 } : World)).setNet
        ((n.emit (.disconn connId)).emit (.connFree a.next.conn))) := by
  let x := firstConn a p connId none
  have hx : (a.world.opened x a.world.subscrs n).lbConn? x.ptr = some x := World.opened_lbConn?
  have hx1 := lbConn?_changed (u := .lbPeerStReady) (-1) hx
  refine lbConnPut_close hx (Int.le_refl 0) rfl ?_
  refine (lbConnCloseBody_idle (t := a.world.subscrs) (lbConnCloseFuel 1) hx1 rfl rfl rfl).trans ?_
  have hdel : (((a.world.opened x a.world.subscrs n).updConn x.ptr
      (LbConn.changed .lbPeerStReady (-1)))).delConn x.ptr
      = ((({ a.world with next.conn := x.ptr + 1 } : World).setSubscrs a.world.subscrs).setNet n) := by
    rw [World.updConn_delConn (LbConn.changed_ptr _ _)]
    exact World.opened_delConn h.conn_fresh
  rw [hdel]
  rfl

/-- The end of the first message, where a request is pending. -/
theorem lbConnPut_first_pending {s : Session} {t : Subscribers Use} {n : Net} (h : a.WF)
    (hs : s.conn = a.next.conn) :
    lbConnPut lbConnClose s.conn .lbPeerStReady (startWorld a s t n)
      = .ok ((), (a.world.addReq s.locReq).opened s.lbConn t n) := by
  refine lbConnPut_opened (x := s.heldConn) ?_ (Int.le_refl 0) Int.one_ne_zero
  intro y hy
  rw [show s.heldConn.ptr = a.next.conn from hs]
  exact h.conn_fresh y hy

theorem startWorld_delConn {s : Session} {t : Subscribers Use} {n : Net} (h : a.WF)
    (hs : s.conn = a.next.conn) : (startWorld a s t n).delConn s.conn
      = ((a.world.addReq s.locReq).opened s.lbConn t n).delConn s.conn := by
  have hfresh : ∀ y ∈ (a.world.addReq s.locReq).lbConns, y.ptr ≠ s.conn := by
    intro y hy
    rw [hs]
    exact h.conn_fresh y hy
  exact (World.opened_delConn (x := s.heldConn) hfresh).trans
    (World.opened_delConn (x := s.lbConn) hfresh).symm

/-- The end of the first message, where the request has been answered already. -/
theorem lbConnPut_first_answered {g : SmlcLocReq → SmlcLocReq} (pdu : PerformLocReq) (n n' : Net) (h : a.WF)
    (hp : ∃ x ∈ a.lbPeers, x.ptr = p ∧ x.fi.state = .ready)
    (hc : ∀ s ∈ a.sessions, s.connId ≠ connId)
    (hg : ∀ y, (g y).ptr = y.ptr) (ht : ∀ y, (g y).fi.terminating = true) :
    ∃ w', lbConnPut lbConnClose a.next.conn .lbPeerStReady
        ((((startWorld a (a.newSession L p connId pdu)
          (Service.newSubscrs L a (a.newSession L p connId pdu)) n).updReq a.next.req g).updConn
          a.next.conn LbConn.unlink).setNet n') = .ok ((), w') ∧
      Shows w' ((a.withSession L p connId pdu n).drop (a.newSession L p connId pdu)
        ((n'.emit (.disconn connId)).emit (.connFree a.next.conn))) := by
  let s := a.newSession L p connId pdu
  let t := Service.newSubscrs L a s
  let a1 := a.withSession L p connId pdu n
  let n1 := (n'.emit (.disconn connId)).emit (.connFree a.next.conn)
  let w := (((startWorld a s t n).updReq s.req g).updConn s.conn LbConn.unlink).setNet n'
  have hw1 : a1.WF := h.withSession hp hc
  have hs1 : s ∈ a1.sessions := List.mem_cons_self
  have hw : a1.world = (a.world.addReq s.locReq).opened s.lbConn t n := Service.withSession_world n
  have hx0 : (startWorld a s t n).lbConn? s.conn = some s.heldConn :=
    World.opened_lbConn? (x := s.heldConn)
  have hx : w.lbConn? s.conn = some s.heldConn.unlink := by
    simp [w, World.lbConn?_updConn LbConn.unlink_ptr, hx0]
  have hx1 := lbConn?_changed (u := .lbPeerStReady) (-1) hx
  have hput : PutSubscr s.subscr t (a1.drop s n1).world.subscrs := by
    have hsub : a1.world.subscrs = t := congrArg World.subscrs hw
    exact hsub ▸ putSubscr_drop hw1 hs1
  have hclose := lbConnCloseBody_idle (lbConnCloseFuel 1) hx1 rfl rfl hput
  refine ⟨_, lbConnPut_close hx (Int.le_refl 0) rfl hclose, ?_⟩
  have hd := (Service.world_shows hw1).drop hw1 hs1 (n := n1) hg ht
  have hdel : ((startWorld a s t n).updReq s.req g).delConn s.conn
      = (a1.world.updReq s.req g).delConn s.conn := by
    rw [World.updReq_delConn, World.updReq_delConn, startWorld_delConn h rfl, hw]
  rw [← hdel] at hd
  have hsame : ((w.updConn s.conn (LbConn.changed .lbPeerStReady (-1))).delConn s.conn)
      = (((startWorld a s t n).updReq s.req g).delConn s.conn).setNet n' := by
    rw [World.updConn_delConn (LbConn.changed_ptr _ _)]
    show ((((startWorld a s t n).updReq s.req g).updConn s.conn LbConn.unlink).delConn
      s.conn).setNet n' = _
    rw [World.updConn_delConn LbConn.unlink_ptr]
  show Shows ((((w.updConn s.conn (LbConn.changed .lbPeerStReady (-1))).delConn
    s.conn).setSubscrs _).setNet _) _
  rw [hsame]
  exact hd

/-- The handling of a request on a new connection, up to the token that holds it. -/
theorem lbPeerStReady_request (pdu : PerformLocReq) (h : a.WF)
    (hp : ∃ x ∈ a.lbPeers, x.ptr = p ∧ x.fi.state = .ready)
    (hc : ∀ s ∈ a.sessions, s.connId ≠ connId) :
    ∃ w', (do
        let _ ← smlcLocReqStart L io a.next.conn pdu
        lbConnPut lbConnClose a.next.conn .lbPeerStReady : M Unit)
        (a.world.opened (firstConn a p connId none) a.world.subscrs a.net) = .ok ((), w') ∧
      Shows w' (a.openSession L io p connId pdu) := by
  let s := a.newSession L p connId pdu
  let t := Service.newSubscrs L a s
  let n := (a.net.emit (.locReqRx s.conn (some .ready))).countRequest
  have hstart : smlcLocReqStart L io s.conn pdu
      (a.world.opened (firstConn a p connId none) a.world.subscrs a.net) = _ :=
    smlcLocReqStart_first L io h hp
  have hpending : (∀ ta, pdu.apdu ≠ some (.taLayer3 ta)) → ∃ w', (do
        let _ ← smlcLocReqStart L io a.next.conn pdu
        lbConnPut lbConnClose a.next.conn .lbPeerStReady : M Unit)
        (a.world.opened (firstConn a p connId none) a.world.subscrs a.net) = .ok ((), w') ∧
      Shows w' (a.withSession L p connId pdu ((n.sendCo io s (.connOrientedInfo .taRequest)).2.emit
        (.locReqAccepted s.req s.conn pdu))) := by
    intro hta
    have hon : smlcLocReqWaitTaOnenter L io s.req (startWorld a s t n) = _ :=
      smlcLocReqWaitTaOnenter_pending L io h hp hta
    refine ⟨_, ?_, Service.world_shows (h.withSession hp hc)⟩
    apply (Prog.bind_ok (hstart.trans ((Prog.bind_ok hon).trans rfl))).trans
    rw [Service.withSession_world]
    exact lbConnPut_first_pending h rfl
  unfold Service.openSession
  cases hap : pdu.apdu with
  | none => exact hpending (by simp [hap])
  | some apdu =>
    cases apdu with
    | taLayer3 ta =>
      obtain ⟨g, hg, ht, hon⟩ := smlcLocReqWaitTaOnenter_answered L io (s := s) (t := t) (n := n) h
        hp hap
      let n2 := ((n.gotTa L io a.cellLocations s pdu.cellId ta).emit (.locReqCleanup s.req)).emit
        (.locReqAccepted s.req s.conn pdu)
      obtain ⟨w', hput, hsh⟩ := lbConnPut_first_answered L pdu n n2 h hp hc hg ht
      refine ⟨w', ?_, hsh⟩
      apply (Prog.bind_ok (hstart.trans ((Prog.bind_ok hon).trans rfl))).trans
      exact hput
    | _ => exact hpending (by simp [hap])

/-- A message on a connection without a request. One for a pending request uses the null
pointer. -/
theorem lbConnRx_none {w : World} {c : ConnPtr} {x : LbConn} (l2 : List UInt8)
    (hx : w.lbConn? c = some x) (hr : x.smlcLocReq = none) :
    match L.msg l2 with
    | .ignored => ∃ rc, lbConnRx L io c l2 w = .ok (rc, w)
    | .request pdu => lbConnRx L io c l2 w = smlcLocReqStart L io c pdu w
    | .ending e => lbConnRx L io c l2 w = .error (.nullDeref e.fn) := by
  unfold lbConnRx Libosmo.msg
  cases L.bssapLeDec l2 with
  | none => exact ⟨_, rfl⟩
  | some pdu =>
    dsimp only
    rw [smlcLocReqRxBssapLe, Prog.bind_ok (derefConn_ok hx), hr]
    cases pdu with
    | other discr => exact ⟨_, rfl⟩
    | bssmapLe pdu =>
      cases pdu with
      | performLocReq pdu => rfl
      | performLocAbort => rfl
      | connOrientedInfo apdu =>
        cases apdu with
        | taResponse cellId ta => rfl
        | reset cellId ta => rfl
        | abort => rfl
        | reject => rfl
        | _ => exact ⟨_, rfl⟩
      | _ => exact ⟨_, rfl⟩

/-- The first message of a connection, in READY. -/
theorem lbPeerStReady_first {msg : RxMsgb} (h : a.WF)
    (hp : ∃ x ∈ a.lbPeers, x.ptr = p ∧ x.fi.state = .ready)
    (hc : ∀ s ∈ a.sessions, s.connId ≠ connId) :
    Follows (lbPeerStReady L io p (.msgUpCoInitial (some ⟨connId, none, some msg⟩)) a.world)
      (a.openConn L io p connId (L.msg msg.l2)) := by
  let w1 := a.world.opened (firstConn a p connId none) a.world.subscrs a.net
  have hx : w1.lbConn? a.next.conn = some (firstConn a p connId none) :=
    World.opened_lbConn? (x := firstConn a p connId none)
  have hbody : lbPeerStReady L io p (.msgUpCoInitial (some ⟨connId, none, some msg⟩)) a.world
      = (do
        let _ ← lbConnRx L io a.next.conn msg.l2
        lbConnPut lbConnClose a.next.conn .lbPeerStReady : M Unit) w1 := by
    rw [lbPeerStReady, Prog.bind_ok (Prog.check_some rfl)]
    apply (Prog.bind_ok (Prog.assert_true rfl)).trans
    apply (Prog.bind_ok (Prog.check_some rfl)).trans
    exact Prog.bind_ok (lbConnCreateIncoming_fresh h)
  have hrx := lbConnRx_none L io msg.l2 hx rfl
  rw [hbody]
  cases hm : L.msg msg.l2 with
  | ignored =>
    rw [hm] at hrx
    obtain ⟨rc, hrx⟩ := hrx
    rw [Prog.bind_ok hrx, lbConnPut_first_idle h]
    have hw : (a.openConn L io p connId .ignored) = .ok _ := rfl
    have hwf := h.openConn hp hc hw
    rw [hw]
    exact ⟨_, _, rfl, Service.world_shows hwf⟩
  | request pdu =>
    rw [hm] at hrx
    obtain ⟨w', hreq, hsh⟩ := lbPeerStReady_request L io pdu h hp hc
    refine ⟨(), w', ?_, hsh⟩
    rw [Prog.bind_apply, hrx, ← hreq]
    rfl
  | ending e =>
    rw [hm] at hrx
    exact Prog.bind_error hrx

end Ready
end OsmoSmlc
