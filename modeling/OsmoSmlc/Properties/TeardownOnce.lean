import OsmoSmlc.Model.Sample
import OsmoSmlc.Service.Simulation

/-! Teardown happens once. However a connection comes to its end, the functions that call
each other in a cycle stop, and each part of the connection is let go of once. -/
namespace OsmoSmlc
open Osmo

/-- A listed connection that is not being closed. It holds any tokens, among them that of its
pending request, and what it points to exists. -/
structure World.ConnForm (w : World) (x : LbConn) : Prop where
  listed : w.lbConn? x.ptr = some x
  opened : x.closing = false
  tokens : x.useCount.WF
  request : ∀ r, x.smlcLocReq = some r → 0 < x.useCount.count .smlcLocReq ∧
    ∃ q, w.locReq? r = some q ∧ q.lbConn = some x.ptr ∧ q.fi.terminating = false
  subscr : ∀ s, x.smlcSubscr = some s → ∃ y, w.subscrs.subscr? s = some y ∧
    y.useCount.WF ∧ 0 < y.useCount.count .lbConn

/-- What is done at the end of a connection: a message, if it is told at all and there is
still a peer to tell it to, the cleanup of its request, and the release of its memory. -/
def LbConn.endActs (x : LbConn) (told : Bool) : List Act :=
  (if told && x.lbPeer.isSome then [.disconn x.sccpConnId] else [])
    ++ (x.smlcLocReq.map Act.locReqCleanup).toList ++ [.connFree x.ptr]

/-- The connection is gone: each act of its end was done once, in some order, and its
subscriber token was returned once. -/
structure Freed (w w' : World) (x : LbConn) (told : Bool) : Prop where
  acts : ∃ acts, acts.Perm (x.endActs told) ∧ w'.net = { w.net with log := w.net.log ++ acts }
  conns : w'.lbConns = KeyedList.remove LbConn.ptr w.lbConns x.ptr
  request : ∀ r, x.smlcLocReq = some r → ∃ q, w'.locReq? r = some q ∧ q.fi.terminating = true
  otherReqs : ∀ r, x.smlcLocReq ≠ some r → w'.locReq? r = w.locReq? r
  subscr : PutSubscr x.smlcSubscr w.subscrs w'.subscrs
  lbPeers : w'.lbPeers = w.lbPeers
  cellLocations : w'.cellLocations = w.cellLocations
  next : w'.next = w.next

section Parts

variable {w : World} {x : LbConn} {q : SmlcLocReq} {r r' : ReqPtr} {n : Net}

end Parts

section Close

variable {w : World} {x : LbConn} {r : ReqPtr}

/-- The token that is put is not that of the pending request. -/
def LbConn.Spare (x : LbConn) (use : Use) : Prop :=
  0 < x.useCount.count use ∧
    (x.smlcLocReq.isSome → use = .smlcLocReq → 1 < x.useCount.count use)

theorem World.ConnForm.put_wf (h : w.ConnForm x) {use : Use} (hs : x.Spare use) :
    (x.useCount.change use (-1)).WF := by
  have hpos := hs.1
  exact h.tokens.change (by omega)

/-- With the last token there is no request pending. -/
theorem World.ConnForm.put_last (h : w.ConnForm x) {use : Use} (hs : x.Spare use)
    (htot : x.useCount.total = 1) : x.smlcLocReq = none := by
  cases hr : x.smlcLocReq with
  | none => rfl
  | some r =>
    have hzero : (x.useCount.change use (-1)).total = 0 := by
      rw [UseCount.total_change]
      omega
    have hcount := (h.put_wf hs).total_eq_zero_iff.mp hzero .smlcLocReq
    have hpos := (h.request r hr).1
    by_cases hu : use = .smlcLocReq
    · have hmore := hs.2 (by simp [hr]) hu
      rw [hu, UseCount.count_change_self h.tokens.nodup] at hcount
      rw [hu] at hmore
      omega
    · rw [UseCount.count_change_ne (Ne.symm hu)] at hcount
      omega

end Close

end OsmoSmlc
