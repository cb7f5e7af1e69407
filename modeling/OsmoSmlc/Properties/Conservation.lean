import OsmoSmlc.Core.Ledger
import OsmoSmlc.Model.Sample
import OsmoSmlc.Service.Turn

/-! Nothing leaks: connections and requests that were ever created are listed or have been
freed, once. -/
namespace OsmoSmlc
open Osmo

def Act.freed? : Act → Option ConnPtr
  | .connFree c => some c
  | _ => none

def Act.cleaned? : Act → Option ReqPtr
  | .locReqCleanup r => some r
  | _ => none

def Act.accepted? : Act → Option ReqPtr
  | .locReqAccepted r _ _ => some r
  | _ => none

/-- The objects that were created, in use or ended. -/
structure World.Conserved (w : World) : Prop where
  conns : Ledger w.next.conn (w.lbConns.map LbConn.ptr) (w.net.log.filterMap Act.freed?)
  reqs : Ledger w.next.req (w.locReqs.map SmlcLocReq.ptr) (w.net.log.filterMap Act.cleaned?)
  accepted : w.net.log.filterMap Act.accepted? = List.range w.next.req

namespace Effect

variable {L : Libosmo} {io : Io} {scu : Bool} {cells : CellStore} {s : Session} {e f : Effect}

def freed (e : Effect) : List ConnPtr := e.acts.filterMap Act.freed?
def cleaned (e : Effect) : List ReqPtr := e.acts.filterMap Act.cleaned?
def accepts (e : Effect) : List ReqPtr := e.acts.filterMap Act.accepted?

/-- Nothing is created, and nothing ends. -/
structure Idle (e : Effect) : Prop where
  freed : e.freed = []
  cleaned : e.cleaned = []
  accepts : e.accepts = []

@[simp] theorem freed_append : (e ++ f).freed = e.freed ++ f.freed := List.filterMap_append
@[simp] theorem cleaned_append : (e ++ f).cleaned = e.cleaned ++ f.cleaned := List.filterMap_append
@[simp] theorem accepts_append : (e ++ f).accepts = e.accepts ++ f.accepts := List.filterMap_append

theorem nil_idle : nil.Idle := ⟨rfl, rfl, rfl⟩

theorem request_idle {c : ConnPtr} : (request c).Idle := ⟨rfl, rfl, rfl⟩

theorem sendCl_idle {addr : SccpAddr} {pdu : BssmapLePdu} : (sendCl io scu addr pdu).Idle := by
  refine ⟨List.filterMap_eq_nil_iff.mpr ?_, List.filterMap_eq_nil_iff.mpr ?_,
    List.filterMap_eq_nil_iff.mpr ?_⟩
  all_goals
    intro a ha
    obtain ⟨rc, rfl⟩ := sendCl_acts ha
    rfl

/-- An answer alone ends nothing. -/
theorem idle_of_answers (h : ∀ a ∈ e.acts, a.Answers s) : e.Idle := by
  refine ⟨List.filterMap_eq_nil_iff.mpr ?_, List.filterMap_eq_nil_iff.mpr ?_,
    List.filterMap_eq_nil_iff.mpr ?_⟩
  all_goals
    intro a ha
    have hans := h a ha
    cases a <;> first | rfl | cases hans

theorem sendCo_idle {pdu : BssmapLePdu} : (sendCo io scu s pdu).Idle :=
  idle_of_answers fun _ => sendCo_answers

theorem gotTa_idle {k : CellId} {ta : UInt8} : (gotTa L io scu cells s k ta).Idle :=
  idle_of_answers fun _ => gotTa_answers

theorem answer_idle {k : Ending} : (answer L io scu cells s k).Idle :=
  idle_of_answers fun _ => answer_answers

theorem discardAll_ends {p : PeerPtr} (ss : List Session) :
    (discardAll p ss).freed = ss.map Session.conn ∧
    (discardAll p ss).cleaned = ss.map Session.req ∧ (discardAll p ss).accepts = [] := by
  induction ss with
  | nil => exact ⟨rfl, rfl, rfl⟩
  | cons s ss ih =>
    obtain ⟨hfree, hclean, hacc⟩ := ih
    rw [discardAll, freed_append, cleaned_append, accepts_append, hfree, hclean, hacc]
    exact ⟨rfl, rfl, rfl⟩

end Effect

namespace Service

variable {L : Libosmo} {io : Io} {a a' b b' : Service} {s : Session} {connId : ConnId} {m : Msg}
  {addr : SccpAddr} {p : PeerPtr} {x : LbPeer} {e f : Effect}

/-- How the objects change from `a` to `a'`, and what is shown of it. -/
structure Books (a : Service) (e : Effect) (a' : Service) : Prop where
  conns : ∃ n, a'.next.conn = a.next.conn + n ∧
    Ledger.Move a.next.conn (a.sessions.map Session.conn) n (a'.sessions.map Session.conn) e.freed
  reqs : ∃ n, a'.next.req = a.next.req + n ∧
    Ledger.Move a.next.req (a.sessions.map Session.req) n (a'.sessions.map Session.req) e.cleaned ∧
    e.accepts = List.range' a.next.req n

/-- Only some parts of the states matter. -/
theorem Books.congr (h : b.Books e b') (hs : a.sessions = b.sessions)
    (hc : a.next.conn = b.next.conn) (hr : a.next.req = b.next.req)
    (hs' : a'.sessions = b'.sessions) (hn' : a'.next = b'.next) : a.Books e a' := by
  obtain ⟨hconns, hreqs⟩ := h
  rw [← hs, ← hs', ← hc, ← hn'] at hconns
  rw [← hs, ← hs', ← hr, ← hn'] at hreqs
  exact ⟨hconns, hreqs⟩

theorem books_idle (he : e.Idle) (hs : a'.sessions = a.sessions)
    (hc : a'.next.conn = a.next.conn) (hr : a'.next.req = a.next.req) : a.Books e a' where
  conns := ⟨0, hc, by rw [hs, he.freed]; exact .keep⟩
  reqs := ⟨0, hr, by rw [hs, he.cleaned]; exact .keep, he.accepts⟩

/-- Acts by which nothing is created or ends may come before and after. -/
theorem Books.before (h : a.Books f a') (he : e.Idle) : a.Books (e ++ f) a' := by
  obtain ⟨hconns, hreqs⟩ := h
  constructor
  · rwa [Effect.freed_append, he.freed, List.nil_append]
  · rwa [Effect.cleaned_append, Effect.accepts_append, he.cleaned, he.accepts, List.nil_append,
      List.nil_append]

theorem Books.then (h : a.Books e a') (hf : f.Idle) : a.Books (e ++ f) a' := by
  obtain ⟨hconns, hreqs⟩ := h
  constructor
  · rwa [Effect.freed_append, hf.freed, List.append_nil]
  · rwa [Effect.cleaned_append, Effect.accepts_append, hf.cleaned, hf.accepts, List.append_nil,
      List.append_nil]

theorem finish_books {k : Ending} (hconns : (a.sessions.map Session.conn).Nodup)
    (hmem : s ∈ a.sessions) : a.Books (a.finishEffect L io s k) (a.finish L io s k) := by
  have hperm : a.sessions.Perm (s :: KeyedList.remove Session.conn a.sessions s.conn) :=
    KeyedList.perm_remove hconns hmem
  refine Books.before ⟨⟨0, rfl, ?_⟩, ⟨0, rfl, ?_, rfl⟩⟩ Effect.answer_idle
  · exact .free (hperm.map Session.conn)
  · exact .free (hperm.map Session.req)

theorem data_books (hconns : (a.sessions.map Session.conn).Nodup) :
    a.Books (a.dataEffect L io connId m) (a.data L io connId m) := by
  cases hfind : a.sessions.find? fun s => s.connId = connId with
  | none =>
    rw [(data_none hfind).1, (data_none hfind).2]
    exact books_idle Effect.nil_idle rfl rfl rfl
  | some s =>
    rw [(data_some hfind).1, (data_some hfind).2]
    let b := a.emit (.peerDispatch s.peer .ready .msgUpCo)
    refine Books.before ?_ ⟨rfl, rfl, rfl⟩
    cases m with
    | ignored => exact books_idle Effect.nil_idle rfl rfl rfl
    | request pdu => exact books_idle Effect.request_idle rfl rfl rfl
    | ending k =>
      have hf : b.Books (b.finishEffect L io s k) (b.finish L io s k) :=
        finish_books hconns (List.mem_of_find?_eq_some hfind)
      exact hf.congr rfl rfl rfl rfl rfl

theorem openSession_books {pdu : PerformLocReq} (hcb : ∀ s ∈ a.sessions, s.conn < a.next.conn) :
    a.Books (a.openSessionEffect L io p connId pdu) (a.openSession L io p connId pdu) := by
  let s := a.newSession L p connId pdu
  by_cases hta : ∃ ta, pdu.apdu = some (.taLayer3 ta)
  · obtain ⟨ta, hta⟩ := hta
    rw [openSession_answered hta, openSessionEffect_answered hta]
    have hremove : KeyedList.remove Session.conn (s :: a.sessions) s.conn = a.sessions :=
      KeyedList.remove_cons_self s fun t ht => Nat.ne_of_lt (hcb t ht)
    constructor
    · refine ⟨1, rfl, ?_⟩
      show Ledger.Move _ _ 1 ((KeyedList.remove Session.conn (s :: a.sessions) s.conn).map _) _
      rw [hremove]
      simp only [Effect.freed_append, Effect.gotTa_idle.freed, Effect.request_idle.freed]
      exact .pass
    · refine ⟨1, rfl, ?_, ?_⟩
      · show Ledger.Move _ _ 1 ((KeyedList.remove Session.conn (s :: a.sessions) s.conn).map _) _
        rw [hremove]
        simp only [Effect.cleaned_append, Effect.gotTa_idle.cleaned, Effect.request_idle.cleaned]
        exact .pass
      · simp only [Effect.accepts_append, Effect.gotTa_idle.accepts, Effect.request_idle.accepts]
        rfl
  · have hta' : ∀ ta, pdu.apdu ≠ some (.taLayer3 ta) := fun ta h => hta ⟨ta, h⟩
    rw [openSession_pending hta', openSessionEffect_pending hta']
    refine ⟨⟨1, rfl, ?_⟩, ⟨1, rfl, ?_, ?_⟩⟩
    · simp only [Effect.freed_append, Effect.sendCo_idle.freed, Effect.request_idle.freed]
      exact .create
    · simp only [Effect.cleaned_append, Effect.sendCo_idle.cleaned, Effect.request_idle.cleaned]
      exact .create
    · simp only [Effect.accepts_append, Effect.sendCo_idle.accepts, Effect.request_idle.accepts]
      rfl

theorem connectTo_books (hcb : ∀ s ∈ a.sessions, s.conn < a.next.conn)
    (ho : a.connectTo L io x connId m = .ok a') :
    a.Books (a.connectToEffect L io x connId m) a' := by
  unfold connectTo at ho
  unfold connectToEffect
  cases hst : x.fi.state with
  | waitRxReset =>
    rw [hst] at ho
    cases ho
    exact books_idle Effect.sendCl_idle rfl rfl rfl
  | waitRxResetAck =>
    rw [hst] at ho
    cases ho
    exact Books.before (e := .act _) (books_idle Effect.sendCl_idle rfl rfl rfl) ⟨rfl, rfl, rfl⟩
  | discarding =>
    rw [hst] at ho
    cases ho
    exact books_idle Effect.nil_idle rfl rfl rfl
  | ready =>
    rw [hst] at ho
    cases m with
    | ignored =>
      cases ho
      exact ⟨⟨1, rfl, .pass⟩, ⟨0, rfl, .keep, rfl⟩⟩
    | request pdu =>
      cases ho
      exact openSession_books hcb
    | ending k => cases ho

theorem connect_books (hcb : ∀ s ∈ a.sessions, s.conn < a.next.conn)
    (ho : a.connect L io connId addr m = .ok a') :
    a.Books (a.connectEffect L io connId addr m) a' := by
  unfold connect at ho
  unfold connectEffect
  split at ho
  · rename_i hany
    cases ho
    rw [if_pos hany]
    exact books_idle ⟨rfl, rfl, rfl⟩ rfl rfl rfl
  · rename_i hany
    obtain ⟨hs, hr, hc, hcells, hnet⟩ := peer_parts L a addr
    let x := (a.peer L addr).1
    let b := (a.peer L addr).2.emit (.peerDispatch x.ptr x.fi.state .msgUpCoInitial)
    have hcb' : ∀ s ∈ b.sessions, s.conn < b.next.conn := by
      intro s hmem
      exact Nat.lt_of_lt_of_eq (hcb s (hs ▸ hmem)) hc.symm
    have ht : b.Books (b.connectToEffect L io x connId m) a' := connectTo_books hcb' ho
    have he : b.connectToEffect L io x connId m = a.connectToEffect L io x connId m :=
      connectToEffect_peer
    rw [he] at ht
    rw [if_neg hany]
    exact (ht.congr hs.symm hc.symm hr.symm rfl rfl).before ⟨rfl, rfl, rfl⟩

theorem unitdata_books {l2 : List UInt8} {msg : MsgbPtr} :
    a.Books (a.unitdataEffect L io addr l2) (a.unitdata L io addr l2 msg) := by
  obtain ⟨hs, hr, hc, -, -⟩ := peer_parts L a addr
  unfold unitdata unitdataEffect
  cases L.bssmapLeMsgt l2 with
  | reset =>
    let p := (a.peer L addr).1.ptr
    let gone := a.sessions.filter fun s => s.peer = p
    let left := a.sessions.filter fun s => s.peer ≠ p
    obtain ⟨hfree, hclean, hacc⟩ := Effect.discardAll_ends (p := p) gone
    have hsplit : (left ++ gone).Perm a.sessions := by
      have happ := List.filter_append_perm (fun s : Session => decide (s.peer = p)) a.sessions
      simp only [gone, left, ne_eq, decide_not]
      exact List.perm_append_comm.trans happ
    have hleft : ((a.peer L addr).2.discardAll p).sessions = left := by
      show (a.peer L addr).2.sessions.filter _ = left
      rw [hs]
    refine Books.then (Books.before (e := _ ++ _) ⟨⟨0, hc, ?_⟩, ⟨0, hr, ?_, ?_⟩⟩ ⟨rfl, rfl, rfl⟩)
      Effect.sendCl_idle
    · show Ledger.Move _ _ 0 (((a.peer L addr).2.discardAll p).sessions.map Session.conn) _
      rw [hleft, hfree]
      refine .freeAll ?_
      rw [← List.map_append]
      exact hsplit.map _
    · show Ledger.Move _ _ 0 (((a.peer L addr).2.discardAll p).sessions.map Session.req) _
      rw [hleft, hclean]
      refine .freeAll ?_
      rw [← List.map_append]
      exact hsplit.map _
    · exact hacc
  | resetAck =>
    dsimp only
    split
    · exact books_idle ⟨rfl, rfl, rfl⟩ hs hc hr
    · exact books_idle ⟨rfl, rfl, rfl⟩ hs hc hr
  | other msgt => exact books_idle ⟨rfl, rfl, rfl⟩ hs hc hr

/-- Every event keeps the books. -/
theorem step_books {i : Input} (h : a.WF) (ho : a.step L i = .ok a') :
    a.Books (a.effect L i) a' := by
  obtain ⟨ev, io⟩ := i
  let b := a.setNet a.net.takeMsgb
  cases ev with
  | scu prim =>
    simp only [step, handle] at ho
    split at ho
    · rename_i c hc
      cases ho
      have hscu : a.net.takeMsgb.scu = a.net.scu := rfl
      have he : b.rxPrimEffect L io prim = a.rxPrimEffect L io prim := rxPrimEffect_setNet hscu
      show a.Books (Effect.msgb ++ a.rxPrimEffect L io prim) _
      rw [← he]
      have hprim : b.Books (b.rxPrimEffect L io prim) c := by
        cases prim with
        | nConnect connId addr l2 =>
          simp only [rxPrim, rxPrimEffect] at hc ⊢
          split at hc
          · rename_i hl
            cases hc
            rw [if_pos hl]
            exact books_idle Effect.nil_idle rfl rfl rfl
          · rename_i hl
            have hn : (b.net.emit (.connResp connId)).scu = b.net.scu := rfl
            have ht : (b.emit (.connResp connId)).Books _ c := connect_books h.connBound hc
            rw [if_neg hl, ← connectEffect_setNet hn]
            exact Books.before (e := .act _) (ht.congr rfl rfl rfl rfl rfl) ⟨rfl, rfl, rfl⟩
        | nData connId l2 =>
          cases hc
          exact data_books h.conns
        | nDisconnect connId l2 =>
          cases hc
          simp only [rxPrimEffect]
          refine Books.then ?_ ⟨rfl, rfl, rfl⟩
          split
          · exact (data_books (a := b) h.conns).congr rfl rfl rfl rfl rfl
          · exact books_idle Effect.nil_idle rfl rfl rfl
        | nUnitdata addr l2 =>
          cases hc
          exact unitdata_books
        | unsupported l2 =>
          cases hc
          exact books_idle Effect.nil_idle rfl rfl rfl
      exact (hprim.before ⟨rfl, rfl, rfl⟩).congr rfl rfl rfl rfl rfl
    · cases ho
  | locReqTimer r =>
    cases ho
    show a.Books (a.locReqTimeoutEffect L io r) (a.locReqTimeout L io r)
    cases hfind : a.sessions.find? fun s => s.req = r with
    | none =>
      rw [(locReqTimeout_none hfind).1, (locReqTimeout_none hfind).2]
      exact books_idle Effect.nil_idle rfl rfl rfl
    | some s =>
      rw [(locReqTimeout_some hfind).1, (locReqTimeout_some hfind).2]
      exact finish_books h.conns (List.mem_of_find?_eq_some hfind)
  | lbPeerTimer p =>
    cases ho
    show a.Books .nil (a.lbPeerTimeout p)
    unfold lbPeerTimeout
    split
    · split
      · exact books_idle Effect.nil_idle rfl rfl rfl
      · exact books_idle Effect.nil_idle rfl rfl rfl
    · exact books_idle Effect.nil_idle rfl rfl rfl
  | vty cmd =>
    cases ho
    exact books_idle Effect.nil_idle rfl rfl rfl

/-- An act that is read as a name counts as often as the name. -/
theorem count_filterMap {f : Act → Option Nat} {act : Act} {k : Nat} {acts : List Act}
    (hf : ∀ b, f b = some k ↔ b = act) : (acts.filterMap f).count k = acts.count act := by
  rw [List.count_filterMap, List.count_eq_countP]
  refine List.countP_congr fun b _ => ?_
  simpa using hf b

theorem world_lbConns_ptr : a.world.lbConns.map LbConn.ptr = a.sessions.map Session.conn := by
  show (a.sessions.map Session.lbConn).map LbConn.ptr = _
  rw [List.map_map]
  rfl

theorem world_locReqs_ptr : a.world.locReqs.map SmlcLocReq.ptr = a.sessions.map Session.req := by
  show (a.sessions.map Session.locReq).map SmlcLocReq.ptr = _
  rw [List.map_map]
  rfl

theorem step_conserved {i : Input} (h : a.WF) (hc : a.world.Conserved) (ho : a.step L i = .ok a') :
    a'.world.Conserved := by
  obtain ⟨⟨n, hn, hconns⟩, ⟨k, hk, hreqs, hacc⟩⟩ := step_books h ho
  rw [← world_lbConns_ptr, ← world_lbConns_ptr] at hconns
  rw [← world_locReqs_ptr, ← world_locReqs_ptr] at hreqs
  have hfreed := filterMap_step (f := Act.freed?) (fun c => by cases c <;> rfl) ho
  have hcleaned := filterMap_step (f := Act.cleaned?) (fun c => by cases c <;> rfl) ho
  have haccepted := filterMap_step (f := Act.accepted?) (fun c => by cases c <;> rfl) ho
  constructor
  · show Ledger a'.next.conn _ (a'.net.log.filterMap _)
    rw [hn, hfreed]
    exact hc.conns.step hconns
  · show Ledger a'.next.req _ (a'.net.log.filterMap _)
    rw [hk, hcleaned]
    exact hc.reqs.step hreqs
  · show a'.net.log.filterMap _ = List.range a'.next.req
    rw [hk, haccepted, show a.net.log.filterMap _ = _ from hc.accepted, ← Ledger.range_add]
    exact congrArg _ hacc

end Service

/-- In every state reached, each connection that was ever created either is listed or has
been freed, once; each request either is pending or has been cleaned up, once; and requests
are accepted in the order in which they are created, each one once. -/
theorem objects_conserved (L : Libosmo) {w : World} (h : ReachableWorld L w) :
    w.Conserved ∧
    (∀ c, w.net.log.count (.connFree c)
      = if c < w.next.conn ∧ c ∉ w.lbConns.map LbConn.ptr then 1 else 0) ∧
    (∀ r, w.net.log.count (.locReqCleanup r)
      = if r < w.next.req ∧ r ∉ w.locReqs.map SmlcLocReq.ptr then 1 else 0) := by
  obtain ⟨scu, a, ⟨is, hr⟩, -, rfl⟩ := h.service
  have hinv : a.WF ∧ a.world.Conserved := by
    refine run_invariant (I := fun b : Service => b.WF ∧ b.world.Conserved) ?_ ?_ hr
    · intro b i b' hb ho
      exact ⟨Service.step_wf hb.1 ho, Service.step_conserved hb.1 hb.2 ho⟩
    · exact ⟨Service.init_wf scu, ⟨.empty, .empty, rfl⟩⟩
  obtain ⟨-, hconns, hreqs, hacc⟩ := hinv
  refine ⟨⟨hconns, hreqs, hacc⟩, fun c => ?_, fun r => ?_⟩
  · rw [← hconns.count_ended, Service.count_filterMap]
    intro b
    cases b <;> simp [Act.freed?]
  · rw [← hreqs.count_ended, Service.count_filterMap]
    intro b
    cases b <;> simp [Act.cleaned?]

/-- Two requests are accepted, and a RESET ends both. -/
theorem objects_conserved_two :
    let w := Sample.after (Sample.twoConns ++ [Sample.resetFrom Sample.addrA])
    w.net.log.count (.connFree 0) = 1 ∧ w.net.log.count (.locReqCleanup 1) = 1 := by
  intro w
  have hw : ReachableWorld Sample.libosmo w := Sample.reachable (by decide +kernel)
  obtain ⟨-, hfree, hclean⟩ := objects_conserved Sample.libosmo hw
  constructor
  · rw [hfree]
    exact if_pos (by decide +kernel)
  · rw [hclean]
    exact if_pos (by decide +kernel)

end OsmoSmlc
