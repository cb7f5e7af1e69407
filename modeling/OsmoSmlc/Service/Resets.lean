import OsmoSmlc.Service.Opening

/-! The RESET procedure on the objects: a peer's connections are discarded one after the
other, a message is sent to it, and its state changes with the result of the send. -/
namespace OsmoSmlc
open Osmo

variable {a : Service} {w : World} {p : PeerPtr} {s : Session} {n : Net} {x : LbPeer}

section Discard

theorem Service.discardAll_none (h : a.WF) (hp : ∀ s ∈ a.sessions, s.peer ≠ p) :
    a.discardAll p = a := by
  have hkeep : a.sessions.filter (fun s => s.peer ≠ p) = a.sessions :=
    List.filter_eq_self.mpr fun s hs => decide_eq_true (hp s hs)
  have hgone : a.sessions.filter (fun s => s.peer = p) = [] :=
    List.filter_eq_nil_iff.mpr fun s hs => by simpa using hp s hs
  unfold Service.discardAll
  rw [hkeep, hgone]
  exact h.gc_eq

theorem remove_conn_split {kept rest : List Session}
    (h : ((kept ++ s :: rest).map Session.conn).Nodup) :
    KeyedList.remove Session.conn (kept ++ s :: rest) s.conn = kept ++ rest := by
  rw [List.map_append, List.map_cons, List.nodup_middle, List.nodup_cons] at h
  have hne : ∀ t ∈ kept ++ rest, t.conn ≠ s.conn := by
    intro t ht heq
    apply h.1
    rw [← List.map_append]
    exact heq ▸ List.mem_map_of_mem ht
  have hk : KeyedList.remove Session.conn kept s.conn = kept :=
    KeyedList.remove_of_forall_ne fun t ht => hne t (List.mem_append_left _ ht)
  have hr : KeyedList.remove Session.conn rest s.conn = rest :=
    KeyedList.remove_of_forall_ne fun t ht => hne t (List.mem_append_right _ ht)
  unfold KeyedList.remove at hk hr ⊢
  rw [List.filter_append, List.filter_cons_of_neg (by simp), hk, hr]

/-- Discarding the first session of a peer and then the others discards them all. -/
theorem Service.discardAll_drop {kept rest : List Session} (h : a.WF)
    (hsplit : a.sessions = kept ++ s :: rest) (hkept : ∀ t ∈ kept, t.peer ≠ p)
    (hs : s.peer = p) : (a.drop s (Net.discarded p a.net s)).discardAll p = a.discardAll p := by
  have hrem : KeyedList.remove Session.conn a.sessions s.conn = kept ++ rest := by
    rw [hsplit]
    exact remove_conn_split (hsplit ▸ h.conns)
  have hf : (kept ++ rest).filter (fun t => t.peer ≠ p)
      = a.sessions.filter fun t => t.peer ≠ p := by
    rw [hsplit, List.filter_append, List.filter_append, List.filter_cons_of_neg (by simp [hs])]
  have hg : a.sessions.filter (fun t => t.peer = p)
      = s :: (kept ++ rest).filter fun t => t.peer = p := by
    have hk : kept.filter (fun t => t.peer = p) = [] :=
      List.filter_eq_nil_iff.mpr fun t ht => by simpa using hkept t ht
    rw [hsplit, List.filter_append, List.filter_append, hk, List.filter_cons_of_pos (by simp [hs])]
    rfl
  have hsub : (a.subscrs.filter fun y => 0 < refs (kept ++ rest) y.ptr).filter
        (fun y => 0 < refs (a.sessions.filter fun t => t.peer ≠ p) y.ptr)
      = a.subscrs.filter fun y => 0 < refs (a.sessions.filter fun t => t.peer ≠ p) y.ptr := by
    rw [List.filter_filter]
    apply List.filter_congr
    intro y _
    rw [← hf]
    by_cases hy : 0 < refs ((kept ++ rest).filter fun t => t.peer ≠ p) y.ptr
    · simp only [hy, decide_true, Bool.true_and, decide_eq_true_eq]
      exact refs_filter_pos hy
    · simp only [hy, decide_false, Bool.false_and]
  unfold Service.discardAll Service.drop Service.gc
  simp only [hrem, hf, hg, List.foldl_cons, hsub]

/-- The loop over the connections discards those of the peer and no others. -/
theorem lbPeerDiscardConns_shows (h : Shows w a) (hw : a.WF) {kept rest : List Session}
    (hsplit : a.sessions = kept ++ rest) (hkept : ∀ s ∈ kept, s.peer ≠ p) :
    ∃ w', lbPeerDiscardConns p (rest.map Session.conn) w = .ok ((), w') ∧
      Shows w' (a.discardAll p) := by
  induction rest generalizing w a kept with
  | nil =>
    rw [List.append_nil] at hsplit
    rw [Service.discardAll_none hw (hsplit ▸ hkept)]
    exact ⟨w, rfl, h⟩
  | cons s rest ih =>
    have hs : s ∈ a.sessions := by rw [hsplit]; simp
    have hx := h.lbConn? hw hs
    by_cases hsp : s.peer = p
    · let n := w.net.emit (.resetDiscard p (some s.req))
      obtain ⟨w1, hd, hsh⟩ := lbConnDiscard_shows (h.setNet n) (hw.setNet n) hs
      have hdrop : (a.setNet n).drop s (((w.setNet n).net.emit (.locReqCleanup s.req)).emit
          (.connFree s.conn)) = a.drop s (Net.discarded p a.net s) := by
        show a.drop s ((n.emit _).emit _) = _
        rw [show n = a.net.emit (.resetDiscard p (some s.req)) from h.net ▸ rfl]
        rfl
      rw [hdrop] at hsh
      have hrem : (a.drop s (Net.discarded p a.net s)).sessions = kept ++ rest := by
        show KeyedList.remove Session.conn a.sessions s.conn = _
        rw [hsplit]
        exact remove_conn_split (hsplit ▸ hw.conns)
      obtain ⟨w2, hrest, hsh2⟩ := ih hsh (hw.drop s _) hrem hkept
      refine ⟨w2, ?_, Service.discardAll_drop hw hsplit hkept hsp ▸ hsh2⟩
      rw [List.map_cons, lbPeerDiscardConns, Prog.bind_ok (derefConn_ok hx)]
      have hif : (Prog.ifTrue (s.lbConn.lbPeer = some p) do
            emit (.resetDiscard p s.lbConn.smlcLocReq)
            lbConnDiscard s.conn) w = .ok ((), w1) := by
        have htrue : decide (s.lbConn.lbPeer = some p) = true := by simp [Session.lbConn, hsp]
        rw [htrue, Prog.ifTrue_true, Prog.bind_ok (emit_apply _)]
        exact hd
      exact (Prog.bind_ok hif).trans hrest
    · have hkept' : ∀ t ∈ kept ++ [s], t.peer ≠ p := by
        intro t ht
        rcases List.mem_append.mp ht with ht | ht
        · exact hkept t ht
        · exact List.mem_singleton.mp ht ▸ hsp
      obtain ⟨w2, hrest, hsh2⟩ := ih h hw (by simp [hsplit]) hkept'
      refine ⟨w2, ?_, hsh2⟩
      rw [List.map_cons, lbPeerDiscardConns, Prog.bind_ok (derefConn_ok hx)]
      have hif : (Prog.ifTrue (s.lbConn.lbPeer = some p) do
            emit (.resetDiscard p s.lbConn.smlcLocReq)
            lbConnDiscard s.conn) w = .ok ((), w) := by
        have hfalse : decide (s.lbConn.lbPeer = some p) = false := by simp [Session.lbConn, hsp]
        rw [hfalse]
        rfl
      exact (Prog.bind_ok hif).trans hrest

theorem lbPeerDiscardAllConns_shows (h : Shows w a) (hw : a.WF) (p : PeerPtr) :
    ∃ w', lbPeerDiscardAllConns p w = .ok ((), w') ∧ Shows w' (a.discardAll p) := by
  obtain ⟨w', hd, hsh⟩ := lbPeerDiscardConns_shows (p := p) h hw (List.nil_append a.sessions).symm (by simp)
  refine ⟨w', ?_, hsh⟩
  rw [lbPeerDiscardAllConns, Prog.bind_ok (Prog.read_apply _ _), h.lbConns, List.map_map]
  exact hd

end Discard

/-! Discarding connections neither looks at the peers nor changes them. -/
section Frame

variable {q : PeerPtr} {f : LbPeer → LbPeer} {close : ConnPtr → M Unit} {c : ConnPtr} {r : ReqPtr}

theorem derefConn_frame : Prog.Frame (fun w => w.updPeer q f) (derefConn c) :=
  Prog.frame_deref fun _ => rfl

theorem setConn_frame {g : LbConn → LbConn} :
    Prog.Frame (fun w => w.updPeer q f) (setConn c g) :=
  Prog.frame_modify fun _ => rfl

theorem emit_frame {act : Act} : Prog.Frame (fun w => w.updPeer q f) (emit act) := fun _ => rfl

theorem lbConnUseCb_frame {u : Use} (hc : ∀ c, Prog.Frame (fun w => w.updPeer q f) (close c)) :
    Prog.Frame (fun w => w.updPeer q f) (lbConnUseCb close c u) := by
  apply derefConn_frame.bind
  intro lbConn
  dsimp only
  split
  · exact Prog.frame_pure _
  · split
    · exact (hc c).bind fun _ => Prog.frame_pure _
    · exact Prog.frame_pure _

theorem lbConnPut_frame {u : Use} (hc : ∀ c, Prog.Frame (fun w => w.updPeer q f) (close c)) :
    Prog.Frame (fun w => w.updPeer q f) (lbConnPut close c u) := by
  refine Prog.Frame.bind ?_ fun rc => Prog.frame_assert
  exact setConn_frame.bind fun _ => lbConnUseCb_frame hc

theorem smlcLocReqFsmCleanup_frame
    (hc : ∀ c, Prog.Frame (fun w => w.updPeer q f) (close c)) :
    Prog.Frame (fun w => w.updPeer q f) (smlcLocReqFsmCleanup close r) := by
  apply emit_frame.bind
  intro _
  have hreq : Prog.Frame (fun w => w.updPeer q f) (derefReq r) := Prog.frame_deref fun _ => rfl
  apply hreq.bind
  intro smlcLocReq
  split
  · exact Prog.frame_pure _
  · apply derefConn_frame.bind
    intro lbConn
    split
    · exact setConn_frame.bind fun _ => lbConnPut_frame hc
    · exact Prog.frame_pure _

theorem lbConnCloseBody_frame (hc : ∀ c, Prog.Frame (fun w => w.updPeer q f) (close c)) :
    Prog.Frame (fun w => w.updPeer q f) (lbConnCloseBody close c) := by
  apply derefConn_frame.bind
  intro lbConn
  split
  · exact Prog.frame_pure _
  · apply setConn_frame.bind
    intro _
    refine Prog.Frame.bind (Prog.frame_ifSome fun _ => emit_frame.bind fun _ => setConn_frame)
      fun _ => ?_
    have hterm : ∀ r, Prog.Frame (fun w => w.updPeer q f) (smlcLocReqTerm close r) := fun r =>
      Fsm.frame_term (fun _ => rfl) (fun _ _ => rfl) (smlcLocReqFsmCleanup_frame hc)
    apply Prog.Frame.bind (Prog.frame_ifSome hterm)
    intro _
    apply derefConn_frame.bind
    intro lbConn
    refine Prog.Frame.bind (Prog.frame_ifSome fun s => Prog.frame_zoom (fun _ => rfl)
      fun _ _ => rfl) fun _ => ?_
    exact emit_frame.bind fun _ => Prog.frame_modify fun _ => rfl

theorem lbConnCloseFuel_frame (n : Nat) (c : ConnPtr) :
    Prog.Frame (fun w => w.updPeer q f) (lbConnCloseFuel n c) := by
  induction n generalizing c with
  | zero => exact Prog.frame_crash _
  | succ n ih => exact lbConnCloseBody_frame ih

theorem lbPeerDiscardConns_frame (cs : List ConnPtr) :
    Prog.Frame (fun w => w.updPeer q f) (lbPeerDiscardConns p cs) := by
  induction cs with
  | nil => exact Prog.frame_pure _
  | cons c cs ih =>
    apply derefConn_frame.bind
    intro lbConn
    refine Prog.Frame.bind (Prog.frame_ifTrue ?_) fun _ => ih
    exact emit_frame.bind fun _ => setConn_frame.bind fun _ => lbConnCloseFuel_frame 2 c

theorem lbPeerDiscardAllConns_frame :
    Prog.Frame (fun w => w.updPeer q f) (lbPeerDiscardAllConns p) := by
  have hread : Prog.Frame (fun w => w.updPeer q f)
      (Prog.read fun w => w.lbConns.map LbConn.ptr : M (List ConnPtr)) :=
    Prog.frame_read fun _ => rfl
  exact hread.bind lbPeerDiscardConns_frame

end Frame

section State

variable {io : Io} {new : LbPeerState}

theorem Service.setPeer_setPeer (st st' : LbPeerState) :
    (a.setPeer p st).setPeer p st' = a.setPeer p st' := by
  have hupd : KeyedList.update LbPeer.ptr (a.setPeer p st).lbPeers p
        (fun y => { y with fi := ⟨st', false, lbPeerFsm.timeout st'⟩ })
      = (a.setPeer p st').lbPeers := KeyedList.update_update fun _ => rfl
  exact congrArg (fun l => { a with lbPeers := l }) hupd

theorem Shows.setPeer (h : Shows w a) (p : PeerPtr) (st : LbPeerState) :
    Shows (w.updPeer p fun y => { y with fi := ⟨st, false, lbPeerFsm.timeout st⟩ })
      (a.setPeer p st) := by
  refine ⟨?_, h.reqPtrs⟩
  have hl := h.lbPeers
  have hsel := h.select
  show ({ w.select with lbPeers := KeyedList.update LbPeer.ptr w.lbPeers p _ } : World) = _
  rw [hsel, hl]
  rfl

/-- A peer that is not DISCARDING may enter any state. -/
theorem lbPeerStateChg_ok (h : Shows w a) (hw : a.WF) (hx : x ∈ a.lbPeers)
    (new : LbPeerState) : lbPeerStateChg x.ptr new w = .ok ((),
      w.updPeer x.ptr fun y => { y with fi := ⟨new, false, lbPeerFsm.timeout new⟩ }) := by
  have hpeer := h.lbPeer? hw hx
  have hget : (lbPeerFi x.ptr).get w = some x.fi := by simp [lbPeerFi, hpeer]
  have ht : x.fi.terminating = false := by rw [hw.peerFi x hx]
  have hm : lbPeerFsm.outState x.fi.state new = true := by
    have hst := hw.peerState x hx
    cases hc : x.fi.state with
    | discarding => exact absurd hc hst
    | _ => rfl
  rw [lbPeerStateChg, Prog.bind_apply, Fsm.stateChg_permitted hget ht hm]
  simp only [lbPeerFi, ht]
  rfl

theorem lbPeerStateChg_shows (h : Shows w a) (hw : a.WF) (hx : x ∈ a.lbPeers)
    (new : LbPeerState) : ∃ w', lbPeerStateChg x.ptr new w = .ok ((), w') ∧
      Shows w' (a.setPeer x.ptr new) ∧ w'.net = w.net :=
  ⟨_, lbPeerStateChg_ok h hw hx new, h.setPeer x.ptr new, rfl⟩

theorem setPeer_mem {st : LbPeerState} (hx : x ∈ a.lbPeers) :
    { x with fi := ⟨st, false, lbPeerFsm.timeout st⟩ } ∈ (a.setPeer x.ptr st).lbPeers := by
  refine List.mem_map.mpr ⟨x, hx, ?_⟩
  simp

/-- A received RESET: the sessions of the peer end, and it is READY once it was told. -/
theorem lbPeerRxReset_shows (io : Io) (msg : RxMsgb) (h : Shows w a) (hw : a.WF) (hx : x ∈ a.lbPeers) :
    ∃ w', lbPeerRxReset io x.ptr msg w = .ok ((), w') ∧ Shows w' (a.rxReset io x msg.name) := by
  obtain ⟨w1, hd, h1⟩ := lbPeerDiscardAllConns_shows h hw x.ptr
  have hw1 : (a.discardAll x.ptr).WF := hw.discardAll x.ptr
  have hx1 : x ∈ (a.discardAll x.ptr).lbPeers := hx
  rw [lbPeerRxReset, Prog.bind_ok hd, Prog.bind_ok (onNet_apply _)]
  unfold Service.rxReset Service.ackReset Net.sendResetAck
  rw [← h1.net]
  rcases henc : w1.net.bssapLeEnc io (.bssmapLe .resetAck) with ⟨_ | resp, n⟩
  · obtain ⟨w2, hst, h2, -⟩ := lbPeerStateChg_shows (h1.setNet n) (hw1.setNet n) hx1 .waitRxReset
    exact ⟨w2, hst, h2⟩
  · have hpeer : (w1.setNet n).lbPeer? x.ptr = some x := h1.lbPeer? hw1 hx1
    let r := n.sccpLbSapDown io (.nUnitdata x.peerAddr (.bssmapLe .resetAck)) resp
    dsimp only
    rw [Prog.bind_ok (derefPeer_ok hpeer)]
    have hsend : sccpLbDownL2Cl io x.peerAddr resp (.bssmapLe .resetAck) (w1.setNet n)
        = .ok (r.1, w1.setNet r.2) := rfl
    by_cases hrc : r.1 = 0
    · obtain ⟨w2, hst, h2, -⟩ := lbPeerStateChg_shows (h1.setNet (r.2.emit (.msgbFree resp)))
        (hw1.setNet _) hx1 .ready
      refine ⟨w2, ?_, ?_⟩
      · apply (Prog.bind_ok hsend).trans
        rw [if_neg (by simpa using hrc)]
        exact (Prog.bind_ok (msgbFree_apply _)).trans hst
      · simp only [r] at hrc
        simp only [hrc, ne_eq, not_true_eq_false, ↓reduceIte]
        exact h2
    · obtain ⟨w2, hst, h2, hnet⟩ := lbPeerStateChg_shows (h1.setNet r.2) (hw1.setNet _) hx1
        .waitRxReset
      refine ⟨w2.setNet (r.2.emit (.msgbFree msg.name)), ?_, ?_⟩
      · apply (Prog.bind_ok hsend).trans
        rw [if_pos hrc]
        apply (Prog.bind_ok hst).trans
        rw [msgbFree_apply, hnet]
        rfl
      · simp only [r] at hrc
        simp only [ne_eq, hrc, not_false_eq_true, ↓reduceIte]
        exact h2.setNet _

/-- The SMLC's own RESET, in any state of the peer: it has left READY by the time its
sessions are discarded. -/
theorem lbPeerReset_discards (io : Io) (h : Shows w a) (hw : a.WF) (hx : x ∈ a.lbPeers) :
    ∃ w', lbPeerReset io x.ptr w = .ok ((), w') ∧ Shows w' ((a.discardAll x.ptr).reset io x) := by
  let b := a.discardAll x.ptr
  let g : LbPeer → LbPeer := fun y => { y with fi := ⟨.waitRxResetAck, false, true⟩ }
  have hst1 : lbPeerStateChg x.ptr .waitRxResetAck w = .ok ((), w.updPeer x.ptr g) :=
    lbPeerStateChg_ok h hw hx .waitRxResetAck
  obtain ⟨w2, hd, h2⟩ := lbPeerDiscardAllConns_shows h hw x.ptr
  have hd' := (lbPeerDiscardAllConns_frame (p := x.ptr) (q := x.ptr) (f := g)).ok hd
  have hsb : ∀ s ∈ b.sessions, s.peer ≠ x.ptr := fun s hs =>
    of_decide_eq_true (List.mem_filter.mp hs).2
  have hw1 : (b.setPeer x.ptr .waitRxResetAck).WF :=
    (hw.discardAll x.ptr).setPeer LbPeerState.noConfusion (.inr hsb)
  have h2' : Shows (w2.updPeer x.ptr g) (b.setPeer x.ptr .waitRxResetAck) := h2.setPeer _ _
  let x' : LbPeer := { x with fi := ⟨.waitRxResetAck, false, true⟩ }
  have hx' : x' ∈ (b.setPeer x.ptr .waitRxResetAck).lbPeers :=
    setPeer_mem (a := b) hx
  rw [lbPeerReset, Prog.bind_ok hst1, Prog.bind_ok hd', Prog.bind_ok (onNet_apply _)]
  unfold Service.reset Net.sendReset
  have hnet : b.net = (w2.updPeer x.ptr g).net := h2'.net.symm
  rw [hnet]
  rcases henc : (w2.updPeer x.ptr g).net.bssapLeEnc io (.bssmapLe .reset) with ⟨_ | msg, n⟩
  · obtain ⟨w3, hst, h3, -⟩ := lbPeerStateChg_shows (h2'.setNet n) (hw1.setNet n) hx' .waitRxReset
    refine ⟨w3, hst, ?_⟩
    have h3' : Shows w3 (((b.setNet n).setPeer x.ptr .waitRxResetAck).setPeer x.ptr .waitRxReset) :=
      h3
    rw [Service.setPeer_setPeer] at h3'
    exact h3'
  · have hpeer : ((w2.updPeer x.ptr g).setNet n).lbPeer? x.ptr = some x' := h2'.lbPeer? hw1 hx'
    let r := n.sccpLbSapDown io (.nUnitdata x.peerAddr (.bssmapLe .reset)) msg
    dsimp only
    rw [Prog.bind_ok (derefPeer_ok hpeer)]
    have hsend : sccpLbDownL2Cl io x'.peerAddr msg (.bssmapLe .reset)
        ((w2.updPeer x.ptr g).setNet n) = .ok (r.1, (w2.updPeer x.ptr g).setNet r.2) := rfl
    have h3 := h2'.setNet (r.2.emit (.msgbFree msg))
    by_cases hrc : r.1 = 0
    · refine ⟨(w2.updPeer x.ptr g).setNet (r.2.emit (.msgbFree msg)), ?_, ?_⟩
      · apply (Prog.bind_ok hsend).trans
        refine (Prog.bind_ok (msgbFree_apply _)).trans ?_
        have hfalse : decide (r.1 ≠ 0) = false := by simp [hrc]
        rw [hfalse]
        rfl
      · simp only [r] at hrc
        simp only [hrc, ne_eq, not_true_eq_false, ↓reduceIte]
        exact h3
    · obtain ⟨w4, hst, h4, -⟩ := lbPeerStateChg_shows h3 (hw1.setNet _) hx' .waitRxReset
      refine ⟨w4, ?_, ?_⟩
      · apply (Prog.bind_ok hsend).trans
        refine (Prog.bind_ok (msgbFree_apply _)).trans ?_
        have htrue : decide (r.1 ≠ 0) = true := by simp [hrc]
        rw [htrue]
        exact hst
      · simp only [r] at hrc
        simp only [ne_eq, hrc, not_false_eq_true, ↓reduceIte]
        have h4' : Shows w4 (((b.setNet (r.2.emit (.msgbFree msg))).setPeer x.ptr
            .waitRxResetAck).setPeer x.ptr .waitRxReset) := h4
        rw [Service.setPeer_setPeer] at h4'
        exact h4'

/-- A peer that is waiting for a RESET has no sessions to discard. -/
theorem lbPeerReset_shows (io : Io) (h : Shows w a) (hw : a.WF) (hx : x ∈ a.lbPeers)
    (hs : ∀ s ∈ a.sessions, s.peer ≠ x.ptr) :
    ∃ w', lbPeerReset io x.ptr w = .ok ((), w') ∧ Shows w' (a.reset io x) := by
  obtain ⟨w', hr, hsh⟩ := lbPeerReset_discards io h hw hx
  rw [Service.discardAll_none hw hs] at hsh
  exact ⟨w', hr, hsh⟩

end State
end OsmoSmlc
