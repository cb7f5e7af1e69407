import OsmoSmlc.Service.Subscribers

/-! How a connection ends: closed when its last token is returned, or discarded with
its request. Both leave the objects of the service without the session. -/
namespace OsmoSmlc
open Osmo

/-- The objects of a service, and requests that are terminated but not freed yet. -/
structure Shows (w : World) (a : Service) : Prop where
  select : w.select = a.world
  reqPtrs : (w.locReqs.map SmlcLocReq.ptr).Nodup

section Shows

variable {w : World} {a : Service} {s : Session}

theorem Service.world_shows (h : a.WF) : Shows a.world a where
  select := by
    have hall : (a.sessions.map Session.locReq).filter (fun q => !q.fi.terminating)
        = a.sessions.map Session.locReq := by
      apply List.filter_eq_self.mpr
      intro q hq
      obtain ⟨s, -, rfl⟩ := List.mem_map.mp hq
      rfl
    simp only [World.select, Service.world, hall]
  reqPtrs := by
    have hmap : (a.sessions.map Session.locReq).map SmlcLocReq.ptr = a.sessions.map Session.req := by
      rw [List.map_map]
      rfl
    show ((a.sessions.map Session.locReq).map SmlcLocReq.ptr).Nodup
    rw [hmap]
    exact h.reqs

theorem Shows.lbPeers (h : Shows w a) : w.lbPeers = a.lbPeers := congrArg World.lbPeers h.select

theorem Shows.lbConns (h : Shows w a) : w.lbConns = a.sessions.map Session.lbConn :=
  congrArg World.lbConns h.select

theorem Shows.subscrs (h : Shows w a) : w.subscrs = a.world.subscrs :=
  (congrArg World.subscrs h.select :)

theorem Shows.cellLocations (h : Shows w a) : w.cellLocations = a.cellLocations :=
  congrArg World.cellLocations h.select

theorem Shows.next (h : Shows w a) : w.next = a.next := congrArg World.next h.select

theorem Shows.net (h : Shows w a) : w.net = a.net := congrArg World.net h.select

theorem Shows.locReqs (h : Shows w a) :
    w.locReqs.filter (fun q => !q.fi.terminating) = a.sessions.map Session.locReq :=
  congrArg World.locReqs h.select

theorem Shows.setNet (h : Shows w a) (n : Net) : Shows (w.setNet n) (a.setNet n) :=
  ⟨congrArg (World.setNet · n) h.select, h.reqPtrs⟩

theorem Shows.lbConn? (h : Shows w a) (hw : a.WF) (hs : s ∈ a.sessions) :
    w.lbConn? s.conn = some s.lbConn := by
  have hl : KeyedList.lookup (LbConn.ptr ∘ Session.lbConn) a.sessions s.conn = some s :=
    KeyedList.lookup_of_mem hw.conns hs
  unfold World.lbConn?
  rw [h.lbConns, KeyedList.lookup_map, hl]
  rfl

theorem Shows.locReq? (h : Shows w a) (hs : s ∈ a.sessions) :
    w.locReq? s.req = some s.locReq := by
  have hm : s.locReq ∈ w.locReqs := by
    have hf : s.locReq ∈ w.locReqs.filter fun q => !q.fi.terminating := by
      rw [h.locReqs]
      exact List.mem_map_of_mem hs
    exact (List.mem_filter.mp hf).1
  exact KeyedList.lookup_of_mem h.reqPtrs hm

theorem Shows.lbPeer? (h : Shows w a) (hw : a.WF) {x : LbPeer} (hx : x ∈ a.lbPeers) :
    w.lbPeer? x.ptr = some x := by
  unfold World.lbPeer?
  rw [h.lbPeers]
  exact KeyedList.lookup_of_mem hw.peerPtrs hx

end Shows

/-- A connection returns its token of the subscriber that it is bound to, if any. -/
def PutSubscr (subscr : Option SubscrPtr) (t t' : Subscribers Use) : Prop :=
  match subscr with
  | some p => smlcSubscrPut p .lbConn t = .ok ((), t')
  | none => t' = t

/-- The message that closing a connection sends while its peer is known. -/
def Net.closing (x : LbConn) (n : Net) : Net :=
  if x.lbPeer.isSome then n.emit (.disconn x.sccpConnId) else n

section Close

variable {close : ConnPtr → M Unit} {w : World} {c : ConnPtr} {r : ReqPtr} {x : LbConn}
  {q : SmlcLocReq} {t : Subscribers Use}

variable (close) in
theorem lbConnCloseBody_closing (hx : w.lbConn? c = some x) (hcl : x.closing = true) :
    lbConnCloseBody close c w = .ok ((), w) := by
  rw [lbConnCloseBody, Prog.bind_ok (derefConn_ok hx)]
  simp [hcl]

/-- The last lines of `lb_conn_close`: return the subscriber token and free. -/
theorem lbConnCloseBody_tail (hx : w.lbConn? c = some x)
    (hp : PutSubscr x.smlcSubscr w.subscrs t) :
    (do
      let lbConn ← derefConn c
      Prog.ifSome lbConn.smlcSubscr fun s => onSubscrs (smlcSubscrPut s .lbConn)
      emit (.connFree c)
      Prog.modify fun w => w.delConn c : M Unit) w
      = .ok ((), ((w.delConn c).setSubscrs t).setNet (w.net.emit (.connFree c))) := by
  rw [Prog.bind_ok (derefConn_ok hx)]
  cases hs : x.smlcSubscr with
  | none =>
    rw [hs] at hp
    subst hp
    rw [Prog.ifSome_none, Prog.bind_ok (Prog.pure_apply _ _), Prog.bind_ok (emit_apply _)]
    rfl
  | some p =>
    rw [hs] at hp
    rw [Prog.ifSome_some, Prog.bind_ok (onSubscrs_ok hp)]
    simp [Prog.bind_apply]

/-- The first lines of `lb_conn_close`: the connection is marked and lets go of its peer. -/
theorem lbConnCloseBody_start (hx : w.lbConn? c = some x) (hcl : x.closing = false) :
    ∃ g : LbConn → LbConn, (∀ y, (g y).ptr = y.ptr) ∧
      g x = { x with closing := true, lbPeer := none } ∧
      ∀ close, lbConnCloseBody close c w = (do
        Prog.ifSome x.smlcLocReq fun r => smlcLocReqTerm close r
        let lbConn ← derefConn c
        Prog.ifSome lbConn.smlcSubscr fun s => onSubscrs (smlcSubscrPut s .lbConn)
        emit (.connFree c)
        Prog.modify fun w => w.delConn c : M Unit) ((w.updConn c g).setNet (w.net.closing x)) := by
  cases hpeer : x.lbPeer with
  | none =>
    refine ⟨fun y => { y with closing := true }, fun _ => rfl, by simp [← hpeer], fun close => ?_⟩
    rw [lbConnCloseBody, Prog.bind_ok (derefConn_ok hx)]
    simp only [hcl, Bool.false_eq_true, ↓reduceIte]
    rw [Prog.bind_ok (setConn_apply _ _), hpeer, Prog.ifSome_none,
      Prog.bind_ok (Prog.pure_apply _ _)]
    simp [Net.closing, hpeer]
    rfl
  | some p =>
    refine ⟨fun y => { y with closing := true, lbPeer := none }, fun _ => rfl, rfl, fun close => ?_⟩
    have hsend : (Prog.ifSome (some p) fun _ => do
          sccpLbDisconnect x.sccpConnId
          setConn c fun x => { x with lbPeer := none } : M Unit)
        (w.updConn c fun x => { x with closing := true })
        = .ok ((), (w.updConn c fun x => { x with closing := true, lbPeer := none }).setNet
          (w.net.closing x)) := by
      simp [Prog.bind_apply, Function.comp_def, Net.closing, hpeer]
    rw [lbConnCloseBody, Prog.bind_ok (derefConn_ok hx)]
    simp only [hcl, Bool.false_eq_true, ↓reduceIte]
    rw [Prog.bind_ok (setConn_apply _ _), hpeer, Prog.bind_ok hsend]

variable (close) in
theorem lbConnCloseBody_idle (hx : w.lbConn? c = some x) (hcl : x.closing = false)
    (hr : x.smlcLocReq = none) (hp : PutSubscr x.smlcSubscr w.subscrs t) :
    lbConnCloseBody close c w = .ok ((), ((w.delConn c).setSubscrs t).setNet
      ((w.net.closing x).emit (.connFree c))) := by
  obtain ⟨g, hg, hgx, hstart⟩ := lbConnCloseBody_start hx hcl
  have hx1 : ((w.updConn c g).setNet (w.net.closing x)).lbConn? c
      = some { x with closing := true, lbPeer := none } := by
    simp [hg, hx, hgx]
  rw [hstart, hr, Prog.ifSome_none]
  refine (Prog.bind_ok (Prog.pure_apply _ _)).trans ?_
  apply (lbConnCloseBody_tail hx1 hp).trans
  simp [World.updConn_delConn hg]

theorem lbConnUseCb_keep {use : Use} (hx : w.lbConn? c = some x)
    (hc : 0 ≤ x.useCount.count use) (ht : x.useCount.total ≠ 0) :
    lbConnUseCb close c use w = .ok (0, w) := by
  rw [lbConnUseCb, Prog.bind_ok (derefConn_ok hx)]
  have hc' : ¬ x.useCount.count use < 0 := by omega
  simp [hc', ht]

/-- The callback closes the connection when its last token is returned. -/
theorem lbConnUseCb_close {u : Use} {w' : World} (hx : w.lbConn? c = some x)
    (hc : 0 ≤ x.useCount.count u) (ht : x.useCount.total = 0)
    (hclose : close c w = .ok ((), w')) : lbConnUseCb close c u w = .ok (0, w') := by
  rw [lbConnUseCb, Prog.bind_ok (derefConn_ok hx)]
  have hc' : ¬ x.useCount.count u < 0 := by omega
  simp only [hc', ↓reduceIte, ht]
  rw [Prog.bind_ok hclose]
  rfl

/-- A request whose state machine is being terminated; `fi` is the instance before. -/
def SmlcLocReq.mark (fi : FsmInst LocReqState) (y : SmlcLocReq) : SmlcLocReq :=
  { y with fi := { fi with terminating := true, timer := false } }

def LbConn.unlink (x : LbConn) : LbConn :=
  { x with smlcLocReq := none, useCount := x.useCount.change .smlcLocReq (-1) }

theorem SmlcLocReq.mark_ptr (fi : FsmInst LocReqState) (y : SmlcLocReq) :
    (y.mark fi).ptr = y.ptr := rfl

theorem LbConn.unlink_ptr (x : LbConn) : x.unlink.ptr = x.ptr := rfl

theorem LbConn.unlink_eq (c : ConnPtr) (w : World) :
    (w.updConn c fun y => { y with smlcLocReq := none }).updConn c
      (fun y => { y with useCount := y.useCount.change .smlcLocReq (-1) })
      = w.updConn c LbConn.unlink :=
  World.updConn_updConn fun _ => rfl

/-- Terminating a request takes it off its connection, whose callback decides the rest. -/
theorem smlcLocReqTerm_unlink {w' : World} (hq : w.locReq? r = some q)
    (ht : q.fi.terminating = false) (hc : q.lbConn = some c) (hx : w.lbConn? c = some x)
    (hr : x.smlcLocReq = some r)
    (hcb : lbConnUseCb close c .smlcLocReq
      (((w.updReq r (SmlcLocReq.mark q.fi)).updConn c LbConn.unlink).setNet
        (w.net.emit (.locReqCleanup r))) = .ok (0, w')) :
    smlcLocReqTerm close r w = .ok ((), w') := by
  have hget : (smlcLocReqFi r).get w = some q.fi := by simp [smlcLocReqFi, hq]
  have hq' : ((w.updReq r (SmlcLocReq.mark q.fi)).setNet (w.net.emit (.locReqCleanup r))).locReq? r
      = some (q.mark q.fi) := by
    simp [World.locReq?_updReq (SmlcLocReq.mark_ptr q.fi), hq]
  have hput : lbConnPut close c .smlcLocReq
      ((((w.updReq r (SmlcLocReq.mark q.fi)).setNet (w.net.emit (.locReqCleanup r)))).updConn c
        fun y => { y with smlcLocReq := none }) = .ok ((), w') := by
    have hgp : lbConnGetPut close c .smlcLocReq (-1)
        ((((w.updReq r (SmlcLocReq.mark q.fi)).setNet (w.net.emit (.locReqCleanup r)))).updConn c
          fun y => { y with smlcLocReq := none }) = .ok (0, w') := by
      rw [lbConnGetPut, Prog.bind_ok (setConn_apply _ _), LbConn.unlink_eq]
      exact hcb
    exact (Prog.bind_ok hgp).trans rfl
  rw [smlcLocReqTerm, Fsm.term_live hget ht]
  show smlcLocReqFsmCleanup close r (w.updReq r (SmlcLocReq.mark q.fi)) = _
  rw [smlcLocReqFsmCleanup, Prog.bind_ok (emit_apply _)]
  apply (Prog.bind_ok (derefReq_ok hq')).trans
  have hc' : (q.mark q.fi).lbConn = some c := hc
  rw [hc']
  dsimp only
  rw [Prog.bind_ok (derefConn_ok (by simpa using hx)), if_pos hr, Prog.bind_ok (setConn_apply _ _)]
  exact hput

/-- A close that finds the connection closing does nothing. -/
def Reentrant (close : ConnPtr → M Unit) (c : ConnPtr) : Prop :=
  ∀ w y, w.lbConn? c = some y → y.closing = true → close c w = .ok ((), w)

theorem lbConnCloseFuel_reentrant (n : Nat) : Reentrant (lbConnCloseFuel (n + 1)) c :=
  fun _ _ hy hcl => lbConnCloseBody_closing (lbConnCloseFuel n) hy hcl

/-- The request of a closing connection ends without a second close. -/
theorem smlcLocReqTerm_closing {x' : LbConn} {q : SmlcLocReq} (hre : Reentrant close c)
    (hq : w.locReq? r = some q) (hqc : q.lbConn = some c) (ht : q.fi.terminating = false)
    (hx : w.lbConn? c = some x') (hcl : x'.closing = true) (hr : x'.smlcLocReq = some r)
    (hpos : 0 ≤ x'.unlink.useCount.count .smlcLocReq) :
    smlcLocReqTerm close r w = .ok ((), ((w.updReq r (SmlcLocReq.mark q.fi)).updConn c
      LbConn.unlink).setNet (w.net.emit (.locReqCleanup r))) := by
  have hx' : (((w.updReq r (SmlcLocReq.mark q.fi)).updConn c LbConn.unlink).setNet
      (w.net.emit (.locReqCleanup r))).lbConn? c = some x'.unlink := by
    simp [World.lbConn?_updConn LbConn.unlink_ptr, hx]
  apply smlcLocReqTerm_unlink hq ht hqc hx hr
  by_cases htot : x'.unlink.useCount.total = 0
  · exact lbConnUseCb_close hx' hpos htot (hre _ _ hx' hcl)
  · exact lbConnUseCb_keep hx' hpos htot

/-- Closing a connection with a pending request ends both. -/
theorem lbConnCloseBody_pending (hre : Reentrant close c) (hx : w.lbConn? c = some x)
    (hcl : x.closing = false) (hr : x.smlcLocReq = some r) (hq : w.locReq? r = some q)
    (hqc : q.lbConn = some c) (ht : q.fi.terminating = false)
    (hpos : 0 ≤ x.unlink.useCount.count .smlcLocReq)
    (hp : PutSubscr x.smlcSubscr w.subscrs t) :
    lbConnCloseBody close c w
      = .ok ((), (((w.updReq r (SmlcLocReq.mark q.fi)).delConn c).setSubscrs t).setNet
        (((w.net.closing x).emit (.locReqCleanup r)).emit (.connFree c))) := by
  obtain ⟨g, hg, hgx, hstart⟩ := lbConnCloseBody_start hx hcl
  let w1 := (w.updConn c g).setNet (w.net.closing x)
  have hx1 : w1.lbConn? c = some { x with closing := true, lbPeer := none } := by
    simp [w1, hg, hx, hgx]
  let w2 := ((w1.updReq r (SmlcLocReq.mark q.fi)).updConn c LbConn.unlink).setNet
    (w1.net.emit (.locReqCleanup r))
  have hx2 : w2.lbConn? c = some { x with closing := true, lbPeer := none : LbConn }.unlink := by
    simp [w2, World.lbConn?_updConn LbConn.unlink_ptr, hx1]
  have hterm : smlcLocReqTerm close r w1 = .ok ((), w2) :=
    smlcLocReqTerm_closing hre hq hqc ht hx1 rfl hr hpos
  rw [hstart, hr, Prog.ifSome_some]
  apply (Prog.bind_ok hterm).trans
  apply (lbConnCloseBody_tail hx2 hp).trans
  have hdel : ((w.updConn c g).updConn c LbConn.unlink).delConn c = w.delConn c :=
    (World.updConn_delConn LbConn.unlink_ptr).trans (World.updConn_delConn hg)
  simp [w2, w1, hdel]

end Close

/-- A change that leaves a request on its connection and its state machine alive. -/
structure KeepsAlive (q : SmlcLocReq) (c : ConnPtr) (g : SmlcLocReq → SmlcLocReq) : Prop where
  ptr : ∀ y, (g y).ptr = y.ptr
  lbConn : (g q).lbConn = some c
  terminating : (g q).fi.terminating = false

section Drop

variable {w : World} {a : Service} {s : Session} {n : Net} {g g' : SmlcLocReq → SmlcLocReq}
  {q : SmlcLocReq}

theorem KeepsAlive.comp {c : ConnPtr} (h : KeepsAlive q c g) (h' : KeepsAlive (g q) c g') :
    KeepsAlive q c (g' ∘ g) :=
  ⟨fun y => (h'.ptr (g y)).trans (h.ptr y), h'.lbConn, h'.terminating⟩

theorem remove_req_eq_remove_conn (h : a.Linked) (hs : s ∈ a.sessions) :
    KeyedList.remove Session.req a.sessions s.req
      = KeyedList.remove Session.conn a.sessions s.conn := by
  apply List.filter_congr
  intro t ht
  have hreq : t.req = s.req → t = s := List.inj_on_of_nodup_map h.reqs ht hs
  have hconn : t.conn = s.conn → t = s := List.inj_on_of_nodup_map h.conns ht hs
  have hiff : t.req = s.req ↔ t.conn = s.conn :=
    ⟨fun heq => hreq heq ▸ rfl, fun heq => hconn heq ▸ rfl⟩
  simp [hiff]

theorem filter_update_terminating {l : List SmlcLocReq} {r : ReqPtr}
    (ht : ∀ y, (g y).fi.terminating = true) :
    (KeyedList.update SmlcLocReq.ptr l r g).filter (fun q => !q.fi.terminating)
      = KeyedList.remove SmlcLocReq.ptr (l.filter fun q => !q.fi.terminating) r := by
  induction l with
  | nil => rfl
  | cons q l ih =>
    simp only [KeyedList.update, KeyedList.remove, List.map_cons, List.filter_cons] at ih ⊢
    by_cases hq : q.ptr = r
    · simp only [hq, ↓reduceIte, ht, Bool.not_true, Bool.false_eq_true, ih]
      split
      · simp [hq]
      · rfl
    · simp only [hq, ↓reduceIte, ih]
      split
      · simp [hq]
      · rfl

/-- The world without a connection, with its request terminated and its token returned,
shows the service without the session. -/
theorem Shows.drop (h : Shows w a) (hw : a.WF) (hs : s ∈ a.sessions)
    (hg : ∀ y, (g y).ptr = y.ptr) (ht : ∀ y, (g y).fi.terminating = true) :
    Shows ((((w.updReq s.req g).delConn s.conn).setSubscrs (a.drop s n).world.subscrs).setNet n)
      (a.drop s n) where
  select := by
    have hreqs : (KeyedList.update SmlcLocReq.ptr w.locReqs s.req g).filter
          (fun q => !q.fi.terminating)
        = (KeyedList.remove Session.conn a.sessions s.conn).map Session.locReq := by
      have hmap : KeyedList.remove SmlcLocReq.ptr (a.sessions.map Session.locReq) s.req
          = (KeyedList.remove (SmlcLocReq.ptr ∘ Session.locReq) a.sessions s.req).map
            Session.locReq := KeyedList.remove_map _ _
      rw [filter_update_terminating ht, h.locReqs, hmap]
      exact congrArg (List.map Session.locReq) (remove_req_eq_remove_conn hw.toLinked hs)
    have hconns : KeyedList.remove LbConn.ptr w.lbConns s.conn
        = (KeyedList.remove Session.conn a.sessions s.conn).map Session.lbConn := by
      rw [h.lbConns]
      exact KeyedList.remove_map Session.lbConn a.sessions
    ext1
    · exact h.lbPeers
    · exact hconns
    · exact hreqs
    · rfl
    · exact h.cellLocations
    · exact h.next
    · rfl
  reqPtrs := by
    have hmap := KeyedList.map_key_update (l := w.locReqs) (k := s.req) hg
    show ((KeyedList.update SmlcLocReq.ptr w.locReqs s.req g).map SmlcLocReq.ptr).Nodup
    rw [hmap]
    exact h.reqPtrs

theorem putSubscr_drop (hw : a.WF) (hs : s ∈ a.sessions) :
    PutSubscr s.subscr a.world.subscrs (a.drop s n).world.subscrs := by
  cases hp : s.subscr with
  | some p => exact Service.smlcSubscrPut_drop hw hs hp
  | none =>
    have hsame : ∀ p, refs (KeyedList.remove Session.conn a.sessions s.conn) p
        = refs a.sessions p := fun p =>
      (Service.refs_remove_other hw.toLinked hs (by simp [hp])).symm
    have hgc : a.subscrs.filter (fun y => 0 < refs
        (KeyedList.remove Session.conn a.sessions s.conn) y.ptr) = a.subscrs := by
      apply List.filter_eq_self.mpr
      intro y hy
      rw [hsame]
      exact decide_eq_true (hw.subscrUsed y hy)
    have hmap : Subscr.smlcSubscr (KeyedList.remove Session.conn a.sessions s.conn)
        = Subscr.smlcSubscr a.sessions := by
      funext y
      simp [Subscr.smlcSubscr, hsame]
    show (a.drop s n).world.subscrs = a.world.subscrs
    simp only [Service.world, Service.drop, Service.gc, hgc, hmap]

/-- A request that ends by itself closes its connection. -/
theorem smlcLocReqTerm_shows (h : Shows w a) (hw : a.WF) (hs : s ∈ a.sessions)
    (hk : KeepsAlive s.locReq s.conn g) (n : Net) :
    ∃ w', smlcLocReqTerm lbConnClose s.req ((w.updReq s.req g).setNet n) = .ok ((), w') ∧
      Shows w' (a.drop s (n.ended s)) ∧
      ∃ q, w'.locReq? s.req = some q ∧ q.fi.terminating = true := by
  have hg := hk.ptr
  have hq : ((w.updReq s.req g).setNet n).locReq? s.req = some (g s.locReq) := by
    simp [hg, h.locReq? hs]
  have hx : ((w.updReq s.req g).setNet n).lbConn? s.conn = some s.lbConn := by
    simpa using h.lbConn? hw hs
  have hput : PutSubscr s.subscr w.subscrs (a.drop s (n.ended s)).world.subscrs :=
    h.subscrs ▸ putSubscr_drop hw hs
  have hx' : ((((w.updReq s.req g).setNet n).updReq s.req (SmlcLocReq.mark (g s.locReq).fi)).updConn
      s.conn LbConn.unlink |>.setNet (n.emit (.locReqCleanup s.req))).lbConn? s.conn
      = some s.lbConn.unlink := by
    simp [World.lbConn?_updConn LbConn.unlink_ptr, h.lbConn? hw hs]
  have hclose := lbConnCloseBody_idle (lbConnCloseFuel 1) hx' rfl rfl hput
  have hcb := lbConnUseCb_close (u := .smlcLocReq) hx' (Int.le_refl 0) rfl hclose
  refine ⟨_, smlcLocReqTerm_unlink hq hk.terminating hk.lbConn hx rfl hcb, ?_, ?_⟩
  · have hd := h.drop hw hs (n := n.ended s) (g := SmlcLocReq.mark (g s.locReq).fi ∘ g)
      (fun y => hg y) (fun y => rfl)
    have hdel := World.updConn_delConn (w := w) (c := s.conn) LbConn.unlink_ptr
    simpa [hg, hdel, LbConn.unlink, Net.closing, Session.lbConn, Net.ended] using hd
  · refine ⟨(g s.locReq).mark (g s.locReq).fi, ?_, rfl⟩
    simp [hg, World.locReq?_updReq, SmlcLocReq.mark_ptr, h.locReq? hs]

/-- A discarded connection terminates its request, which finds the connection closing. -/
theorem lbConnDiscard_shows (h : Shows w a) (hw : a.WF) (hs : s ∈ a.sessions) :
    ∃ w', lbConnDiscard s.conn w = .ok ((), w') ∧
      Shows w' (a.drop s ((w.net.emit (.locReqCleanup s.req)).emit (.connFree s.conn))) := by
  have hx : (w.updConn s.conn fun y => { y with lbPeer := none }).lbConn? s.conn
      = some { s.lbConn with lbPeer := none } := by
    simp [h.lbConn? hw hs]
  have hput : PutSubscr s.subscr w.subscrs (a.drop s
      ((w.net.emit (.locReqCleanup s.req)).emit (.connFree s.conn))).world.subscrs :=
    h.subscrs ▸ putSubscr_drop hw hs
  have hclose := lbConnCloseBody_pending (lbConnCloseFuel_reentrant 0) hx rfl rfl
    (h.locReq? hs) rfl rfl (Int.le_refl 0) hput
  refine ⟨_, ?_, h.drop hw hs (g := SmlcLocReq.mark s.locReq.fi) (fun y => rfl) (fun y => rfl)⟩
  rw [lbConnDiscard, Prog.bind_ok (setConn_apply _ _)]
  apply hclose.trans
  have hdel : (w.updConn s.conn fun y => { y with lbPeer := none }).delConn s.conn
      = w.delConn s.conn := World.updConn_delConn fun _ => rfl
  simp [hdel, Net.closing]

end Drop
end OsmoSmlc
