import OsmoSmlc.Model.Sample
import OsmoSmlc.Properties.AnswerContent
import OsmoSmlc.Properties.Order
import OsmoSmlc.Service.Control
import OsmoSmlc.Service.LinkSteps

/-! Connectionless messages may arrive more than once. A RESET makes up for whatever came from
its peer just before, and a RESET ACKNOWLEDGE for another one. -/
namespace OsmoSmlc
open Osmo

/-- Handling `m` and then `m'` is handling `m'`: a RESET makes up for everything before it, and
a message that is not handled needs nothing to make up for it. -/
def BssmapLeMsgt.Supersedes (m' m : BssmapLeMsgt) : Prop :=
  m' = .reset ∨ (∃ msgt, m = .other msgt) ∨ m = .resetAck ∧ m' = .resetAck

/-- Two connectionless messages from one address, of which the second makes up for the first. -/
def Event.Superseded (L : Libosmo) (ev ev' : Event) : Prop :=
  ∃ addr l2 l2', ev = .scu (.nUnitdata addr l2) ∧ ev' = .scu (.nUnitdata addr l2') ∧
    (L.bssmapLeMsgt l2').Supersedes (L.bssmapLeMsgt l2)

/-- A RESET ACKNOWLEDGE is sent where it can be encoded. (Otherwise the buffer of the RESET is
freed twice, which is no failure here, but ends the process.) -/
def Io.AcksReset (io : Io) (scu : Bool) : Prop :=
  io.bssapLeEnc (.bssmapLe .resetAck) = true →
    scu = true ∧ ∀ addr, io.sapDown (.nUnitdata addr (.bssmapLe .resetAck)) = 0

/-- The input `j` may be left out before `i`, which makes up for it; a RESET, if it is answered. -/
structure Input.LeftOut (L : Libosmo) (scu : Bool) (j i : Input) : Prop where
  superseded : j.ev.Superseded L i.ev
  answered : ∀ addr l2, j.ev = .scu (.nUnitdata addr l2) → L.bssmapLeMsgt l2 = .reset →
    j.io.AcksReset scu

theorem BssmapLeMsgt.supersedes_self (m : BssmapLeMsgt) : m.Supersedes m := by
  cases m with
  | reset => exact .inl rfl
  | resetAck => exact .inr (.inr ⟨rfl, rfl⟩)
  | other msgt => exact .inr (.inl ⟨msgt, rfl⟩)

/-- A connectionless message makes up for a copy of it. -/
theorem Event.superseded_self (L : Libosmo) (addr : SccpAddr) (l2 : List UInt8) :
    (Event.scu (.nUnitdata addr l2)).Superseded L (.scu (.nUnitdata addr l2)) :=
  ⟨addr, l2, l2, rfl, rfl, BssmapLeMsgt.supersedes_self _⟩

/-- The same but for the counters and the record, and the same on every connection. -/
structure World.Twin (w u : World) : Prop where
  state : w.setNet u.net = u
  scu : u.net.scu = w.net.scu
  sentOn : ∀ connId, sentOn connId w.net.log = sentOn connId u.net.log

namespace Service

variable {L : Libosmo} {io io' : Io} {a a' b b' : Service} {addr : SccpAddr} {x : LbPeer}
  {i j : Input} {n : Net} {l2 : List UInt8} {msg : MsgbPtr}

structure Twin (a b : Service) : Prop where
  state : a.setNet b.net = b
  scu : b.net.scu = a.net.scu
  sentOn : ∀ connId, sentOn connId a.net.log = sentOn connId b.net.log

theorem twin_equivalence : Equivalence Twin where
  refl _ := ⟨rfl, rfl, fun _ => rfl⟩
  symm := by
    intro a b h
    refine ⟨?_, h.scu.symm, fun c => (h.sentOn c).symm⟩
    show b.setNet a.net = (a.setNet b.net).setNet a.net
    rw [h.state]
  trans := by
    intro a b c h h'
    refine ⟨?_, h'.scu.trans h.scu, fun k => (h.sentOn k).trans (h'.sentOn k)⟩
    show (a.setNet b.net).setNet c.net = c
    rw [h.state, h'.state]

theorem effect_setNet (hn : n.scu = a.net.scu) : (a.setNet n).effect L i = a.effect L i := by
  obtain ⟨ev, io⟩ := i
  cases ev with
  | scu prim => exact congrArg (Effect.msgb ++ ·) (rxPrimEffect_setNet hn)
  | locReqTimer r =>
    obtain ⟨scu, ctrs, nextMsgb, log⟩ := n
    cases hn
    rfl
  | _ => rfl

theorem Twin.agrees (h : Twin a b) : Agrees a b := ⟨a.cellLocations, b.net, h.state.symm⟩

theorem Twin.of_agrees (h : Agrees a b) (hcells : b.cellLocations = a.cellLocations) :
    a.setNet b.net = b := by
  obtain ⟨c, n, rfl⟩ := h
  cases hcells
  rfl

/-- The same event does the same to both. -/
theorem Twin.step (h : Twin a b) : SameOutcome Twin (a.step L i) (b.step L i) := by
  have hsame : i.io.SameResets i.io := ⟨fun _ _ => rfl, fun _ _ => rfl⟩
  have hcells : b.cellLocations = a.cellLocations := by
    show b.cellLocations = (a.setNet b.net).cellLocations
    rw [h.state]
  have hobj : SameOutcome Agrees (a.step L i) (b.step L i) := h.agrees.handle h.scu.symm hsame
  refine hobj.mono fun a' b' ha hb hab => ⟨of_agrees hab ?_, ?_, fun connId => ?_⟩
  · rw [step_cells ha, step_cells hb, hcells]
  · rw [(step_does ha).scu, (step_does hb).scu, h.scu]
  · have heff : b.effect L i = a.effect L i := by
      rw [← h.state, effect_setNet h.scu]
    rw [(step_does ha).sentOn_log, (step_does hb).sentOn_log, h.sentOn, heff]

/-- What a connectionless message does to the objects, if the RESET ACKNOWLEDGE that it may
call for is accepted or not. -/
def settle (x : LbPeer) (ok : Bool) (a : Service) : BssmapLeMsgt → Service
  | .reset => (a.discardAll x.ptr).setPeer x.ptr (if ok then .ready else .waitRxReset)
  | .resetAck => if x.fi.state = .waitRxResetAck then a.setPeer x.ptr .ready else a
  | .other _ => a

theorem discardAll_setNet (n : Net) (a : Service) (p : PeerPtr) :
    ∃ k, (a.setNet n).discardAll p = (a.discardAll p).setNet k := ⟨_, rfl⟩

theorem settle_setNet (ok : Bool) (m : BssmapLeMsgt) :
    ∃ k, (a.setNet n).settle x ok m = (a.settle x ok m).setNet k := by
  cases m with
  | reset => exact ⟨_, rfl⟩
  | other msgt => exact ⟨n, rfl⟩
  | resetAck =>
    unfold settle
    dsimp only
    split
    · exact ⟨n, rfl⟩
    · exact ⟨n, rfl⟩

theorem unitdata_settle (msg : MsgbPtr) : ∃ k, a.unitdata L io addr l2 msg
    = ((a.peer L addr).2.settle (a.peer L addr).1
        (Effect.accepted io a.net.scu (a.peer L addr).1.peerAddr .resetAck)
        (L.bssmapLeMsgt l2)).setNet k := by
  unfold unitdata
  cases L.bssmapLeMsgt l2 with
  | other msgt => exact ⟨_, rfl⟩
  | resetAck =>
    unfold settle
    dsimp only
    split
    · exact ⟨_, rfl⟩
    · exact ⟨_, rfl⟩
  | reset =>
    let x := (a.peer L addr).1
    let b := (a.peer L addr).2
    let c := (b.emit (.peerDispatch x.ptr x.fi.state .msgUpCl)).emit
      (.peerDispatch x.ptr x.fi.state .rxReset)
    have hscu : c.net.scu = a.net.scu := by
      show b.net.scu = a.net.scu
      rw [peer_net]
    obtain ⟨k, hk⟩ : ∃ k, c.discardAll x.ptr = (b.discardAll x.ptr).setNet k :=
      discardAll_setNet _ b x.ptr
    show ∃ k, (c.rxReset io x msg) = _
    unfold rxReset ackReset
    rw [Net.sendResetAck_does.2, discardAll_scu, hscu, hk]
    exact ⟨_, rfl⟩

theorem step_settle (a : Service) (io : Io) {ev : Event} (hev : ev = .scu (.nUnitdata addr l2)) :
    ∃ n, a.step L ⟨ev, io⟩ = .ok (((a.peer L addr).2.settle (a.peer L addr).1
      (Effect.accepted io a.net.scu (a.peer L addr).1.peerAddr .resetAck)
      (L.bssmapLeMsgt l2)).setNet n) := by
  subst hev
  let b := a.setNet a.net.takeMsgb
  have hpeer : b.peer L addr = ((a.peer L addr).1, (a.peer L addr).2.setNet a.net.takeMsgb) :=
    peer_setNet
  obtain ⟨n, hb⟩ := unitdata_settle (L := L) (a := b) a.net.nextMsgb
  rw [hpeer] at hb
  obtain ⟨k, hk⟩ := settle_setNet _ _
  have hstep : a.step L ⟨.scu (.nUnitdata addr l2), io⟩
      = .ok ((b.unitdata L io addr l2 a.net.nextMsgb).emit (.msgbFree a.net.nextMsgb)) := rfl
  rw [hstep, hb, hk]
  exact ⟨n.emit (.msgbFree a.net.nextMsgb), rfl⟩

/-- Connectionless messages do not show on connections. -/
theorem unitdata_sentOn {ev : Event} {connId : ConnId} (hev : ev = .scu (.nUnitdata addr l2))
    (ho : a.step L ⟨ev, io⟩ = .ok a') : sentOn connId a'.net.log = sentOn connId a.net.log := by
  subst hev
  have hnone : ∀ act ∈ (a.unitdataEffect L io addr l2).acts, act.connId? = none := by
    intro act hact
    unfold unitdataEffect at hact
    cases hmsgt : L.bssmapLeMsgt l2 with
    | reset =>
      rw [hmsgt] at hact
      exact resetEffect_sent (x := (a.peer L addr).1) (List.mem_append_right _ hact)
    | resetAck =>
      rw [hmsgt] at hact
      simp only [Effect.acts_append, Effect.acts_act, List.mem_append, List.mem_singleton] at hact
      rcases hact with rfl | rfl
      · rfl
      · rfl
    | other msgt =>
      rw [hmsgt] at hact
      cases List.mem_singleton.mp hact
      rfl
  rw [(step_does ho).sentOn_log]
  show _ ++ (a.unitdataEffect L io addr l2).acts.filter _ = _
  rw [List.filter_eq_nil_iff.mpr fun act hact => by simp [hnone act hact], List.append_nil]

section Settle

variable {ok ok' : Bool} {m m' : BssmapLeMsgt}

theorem discardAll_discardAll {p : PeerPtr} : (a.discardAll p).discardAll p = a.discardAll p := by
  have hkeep : (a.sessions.filter fun s => s.peer ≠ p).filter (fun s => s.peer ≠ p)
      = a.sessions.filter fun s => s.peer ≠ p := by simp
  have hgone : (a.sessions.filter fun s => s.peer ≠ p).filter (fun s => s.peer = p) = [] := by
    simp
  unfold discardAll gc
  dsimp only
  rw [hkeep, hgone]
  simp

/-- A peer that a message was handled for, whatever its state was before. -/
def settled (x : LbPeer) (ok : Bool) (m : BssmapLeMsgt) : LbPeer :=
  match m with
  | .reset =>
      let st : LbPeerState := if ok then .ready else .waitRxReset
      { x with fi := ⟨st, false, lbPeerFsm.timeout st⟩ }
  | .resetAck =>
      if x.fi.state = .waitRxResetAck then { x with fi := ⟨.ready, false, lbPeerFsm.timeout .ready⟩ }
      else x
  | .other _ => x

theorem settle_find (hx : a.lbPeers.find? (fun y => L.sccpAddrRiCmp addr y.peerAddr = 0) = some x) :
    (a.settle x ok m).lbPeers.find? (fun y => L.sccpAddrRiCmp addr y.peerAddr = 0)
      = some (settled x ok m) := by
  cases m with
  | reset =>
    show ((a.discardAll x.ptr).setPeer _ _).lbPeers.find? _ = _
    rw [find_setPeer]
    show (a.lbPeers.find? _).map _ = _
    rw [hx]
    simp [settled]
  | resetAck =>
    unfold settle settled
    dsimp only
    split
    · rw [find_setPeer, hx]
      simp
    · exact hx
  | other msgt => exact hx

theorem settle_settle (h : m'.Supersedes m) :
    (a.settle x ok m).settle (settled x ok m) ok' m' = a.settle x ok' m' := by
  rcases h with rfl | ⟨msgt, rfl⟩ | ⟨rfl, rfl⟩
  · cases m with
    | other msgt => rfl
    | reset =>
      show (((a.discardAll x.ptr).discardAll x.ptr).setPeer x.ptr _).setPeer x.ptr _ = _
      rw [discardAll_discardAll, setPeer_setPeer]
      rfl
    | resetAck =>
      unfold settle settled
      dsimp only
      split
      · exact setPeer_setPeer (a := a.discardAll x.ptr) _ _
      · rfl
  · rfl
  · unfold settle settled
    dsimp only
    split
    · rw [if_neg (by simp)]
    · rfl

end Settle

theorem settled_peerAddr {ok : Bool} {m : BssmapLeMsgt} :
    (settled x ok m).peerAddr = x.peerAddr := by
  unfold settled
  split
  · rfl
  · split
    · rfl
    · rfl
  · rfl

/-- An event makes up for the one before it. -/
theorem step_superseded (hri : L.RiCmpEquivalence) (h : j.ev.Superseded L i.ev) :
    ∃ b, a.step L j = .ok b ∧ SameOutcome Twin (b.step L i) (a.step L i) := by
  obtain ⟨addr, l2, l2', hj, hi, hsup⟩ := h
  let x := (a.peer L addr).1
  let ok := Effect.accepted j.io a.net.scu x.peerAddr .resetAck
  let ok' := Effect.accepted i.io a.net.scu x.peerAddr .resetAck
  let x' := settled x ok (L.bssmapLeMsgt l2)
  let t := (a.peer L addr).2.settle x ok (L.bssmapLeMsgt l2)
  let t' := (a.peer L addr).2.settle x ok' (L.bssmapLeMsgt l2')
  obtain ⟨n, hb⟩ : ∃ n, a.step L j = .ok (t.setNet n) := step_settle a j.io hj
  obtain ⟨k, hd⟩ : ∃ k, a.step L i = .ok (t'.setNet k) := step_settle a i.io hi
  have hscu : n.scu = a.net.scu := (step_does hb).scu
  have hpeer : (t.setNet n).peer L addr = (x', t.setNet n) :=
    peer_found (settle_find (find_peer hri (hri.refl addr)))
  have hok : Effect.accepted i.io (t.setNet n).net.scu x'.peerAddr .resetAck = ok' := by
    rw [show x'.peerAddr = x.peerAddr from settled_peerAddr]
    exact congrArg (fun scu => Effect.accepted i.io scu x.peerAddr .resetAck) hscu
  obtain ⟨k', hc⟩ : ∃ k', (t.setNet n).step L i = .ok (t'.setNet k') := by
    obtain ⟨k', hc⟩ := step_settle (L := L) (t.setNet n) i.io hi
    obtain ⟨m, hm⟩ : ∃ m, (t.setNet n).settle x' ok' (L.bssmapLeMsgt l2')
      = (t.settle x' ok' (L.bssmapLeMsgt l2')).setNet m := settle_setNet _ _
    rw [hpeer, hok, hm, settle_settle hsup] at hc
    exact ⟨k', hc⟩
  refine ⟨t.setNet n, hb, ?_⟩
  rw [hc, hd]
  refine .ok ⟨rfl, ?_, fun connId => ?_⟩
  · rw [(step_does hc).scu, (step_does hd).scu]
    exact hscu.symm
  · rw [unitdata_sentOn hi hc, unitdata_sentOn hi hd, unitdata_sentOn hj hb]

theorem twin_makesUp (hri : L.RiCmpEquivalence) :
    MakesUp (step L) Twin fun j i => j.ev.Superseded L i.ev where
  equiv := twin_equivalence
  both _ _ _ h := h.step
  again _ _ _ h := step_superseded hri h

end Service

/-- Connectionless messages that are superseded by the next event, RESETs only if they are
answered, might as well be lost: the process fails with them as without, it ends in the same
state but for counters and record, and it shows the same on every connection. -/
theorem run_redelivered (L : Libosmo) (hri : L.RiCmpEquivalence) {w : World}
    (hw : ReachableWorld L w) {is js : List Input} (h : Thinned (Input.LeftOut L w.net.scu) is js) :
    SameOutcome World.Twin (run (step L) w is) (run (step L) w js) := by
  obtain ⟨scu, a, -, hwf, rfl⟩ := hw.service
  have hthin : Thinned (fun j i : Input => j.ev.Superseded L i.ev) is js :=
    h.mono fun j i hji => hji.superseded
  have hrun := (Service.twin_makesUp hri).run hthin a
  rw [run_world L hwf, run_world L hwf]
  generalize run (Service.step L) a is = x at hrun
  generalize run (Service.step L) a js = y at hrun
  cases hrun with
  | error e => exact .error e
  | ok ht => exact .ok ⟨congrArg Service.world ht.state, ht.scu, ht.sentOn⟩

/-- A RESET and a RESET ACKNOWLEDGE arrive twice. -/
theorem run_redelivered_twice :
    let is := [Sample.resetFrom Sample.addrA, Sample.resetFrom Sample.addrA,
      Sample.connect 1 Sample.addrA Sample.msgRequestA, Sample.resetAckFrom Sample.addrA,
      Sample.resetAckFrom Sample.addrA, Sample.data 1 Sample.msgTaResponse]
    let js := [Sample.resetFrom Sample.addrA,
      Sample.connect 1 Sample.addrA Sample.msgRequestA, Sample.resetAckFrom Sample.addrA,
      Sample.data 1 Sample.msgTaResponse]
    ∃ v, run (step Sample.libosmo) (World.init true) js = .ok v ∧ (Sample.after is).Twin v := by
  intro is js
  have hself : ∀ l2, Input.LeftOut Sample.libosmo true
      ⟨.scu (.nUnitdata Sample.addrA l2), Sample.io⟩ ⟨.scu (.nUnitdata Sample.addrA l2), Sample.io⟩ :=
    fun l2 => ⟨Event.superseded_self Sample.libosmo Sample.addrA l2,
      fun _ _ _ _ _ => ⟨rfl, fun _ => rfl⟩⟩
  have hthin : Thinned (Input.LeftOut Sample.libosmo true) is js :=
    .drop (hself _) (.keep _ (.keep _ (.drop (hself _) (.keep _ (.keep _ .nil)))))
  have hr : ReachableWorld Sample.libosmo (World.init true) := ⟨true, Reachable.refl⟩
  have hu : run (step Sample.libosmo) (World.init true) is = .ok (Sample.after is) :=
    Sample.run_after (by decide +kernel)
  exact (run_redelivered Sample.libosmo Sample.libosmo_riCmp hr hthin).of_ok hu

end OsmoSmlc
