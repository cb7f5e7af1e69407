import OsmoSmlc.Service.Independent

/-! Events on listed connections and from known peers, as moves: which sessions stay, which
peer enters which state, and what is shown. A move is determined by what the service holds
for the connection or the peer that the event is for, and leaves alone what it holds for
others. -/
namespace OsmoSmlc
open Osmo

/-- What an event is for. -/
inductive Target where
  | conn (c : ConnPtr)
  | peer (p : PeerPtr)
  deriving DecidableEq

/-- What the service holds for a target. -/
inductive View where
  | conn (s : Option Session)
  | peer (x : Option LbPeer) (ss : List Session)

structure Move where
  keep : Session → Bool
  enter : Option (PeerPtr × LbPeerState)
  effect : Effect

namespace Move

/-- Nothing changes; a primitive still comes in a buffer. -/
def idle (ev : Event) : Move where
  keep _ := true
  enter := none
  effect :=
    match ev with
    | .scu _ => .msgb
    | _ => .nil

def apply (m : Move) (n : Net) (a : Service) : Service :=
  match m.enter with
  | some (p, st) => (a.cut m.keep n).setPeer p st
  | none => a.cut m.keep n

/-- An event of a peer, of which the sessions are `ss`. -/
def ofPeer (L : Libosmo) (io : Io) (scu : Bool) (x : LbPeer) (ss : List Session) : Event → Move
  | .scu (.nUnitdata _ l2) =>
      let up : Effect := .act (.peerDispatch x.ptr x.fi.state .msgUpCl)
      match L.bssmapLeMsgt l2 with
      | .reset => ⟨fun s => s.peer ≠ x.ptr, some (x.ptr, Service.resetState io scu x),
          Service.resetEffect io scu x ss⟩
      | .resetAck => ⟨fun _ => true,
          if x.fi.state = .waitRxResetAck then some (x.ptr, .ready) else none,
          .msgb ++ (up ++ .act (.peerDispatch x.ptr x.fi.state .rxResetAck))⟩
      | .other _ => ⟨fun _ => true, none, .msgb ++ up⟩
  | .lbPeerTimer p => { idle (.lbPeerTimer p) with
      enter := if x.fi.timer then some (x.ptr, .waitRxReset) else none }
  | ev => idle ev

end Move

def View.move (L : Libosmo) (i : Input) (scu : Bool) (cells : CellStore) : View → Move
  | .conn (some s) =>
      ⟨Service.staying L i.ev s, none, Service.sessionEffect L i.io scu cells s i.ev⟩
  | .peer (some x) ss => .ofPeer L i.io scu x ss i.ev
  | .conn none | .peer none _ => .idle i.ev

namespace Service

def target (L : Libosmo) (a : Service) : Event → Option Target
  | .scu (.nData connId _) =>
      (a.sessions.find? fun s => s.connId = connId).map fun s => .conn s.conn
  | .scu (.nUnitdata addr _) =>
      (a.lbPeers.find? fun x => L.sccpAddrRiCmp addr x.peerAddr = 0).map fun x => .peer x.ptr
  | .locReqTimer r => (a.sessions.find? fun s => s.req = r).map fun s => .conn s.conn
  | .lbPeerTimer p => some (.peer p)
  | _ => none

def view (a : Service) : Target → View
  | .conn c => .conn (KeyedList.lookup Session.conn a.sessions c)
  | .peer p => .peer (KeyedList.lookup LbPeer.ptr a.lbPeers p)
      (a.sessions.filter fun s => s.peer = p)

/-- Events for these targets cannot be exchanged: a peer and its connections. -/
def Dependent (a : Service) : Target → Target → Prop
  | .conn c, .conn c' => c = c'
  | .peer p, .peer p' => p = p'
  | .conn c, .peer p | .peer p, .conn c => ∃ s ∈ a.sessions, s.conn = c ∧ s.peer = p

theorem dependent_refl {a : Service} (t : Target) : a.Dependent t t := by
  cases t with
  | conn c => exact Eq.refl c
  | peer p => exact Eq.refl p

theorem dependent_symm {a : Service} {t t' : Target} (h : a.Dependent t t') :
    a.Dependent t' t := by
  cases t with
  | conn c =>
    cases t' with
    | conn c' => exact Eq.symm h
    | peer p => exact h
  | peer p =>
    cases t' with
    | conn c => exact h
    | peer p' => exact Eq.symm h

/-- The service after events for targets of `a₀`: it has no other sessions, and its peers
are the same but for their states. -/
structure Within (a₀ a : Service) : Prop where
  wf : a.WF
  sessions : ∀ s ∈ a.sessions, s ∈ a₀.sessions
  peers : a.lbPeers.map (fun x => (x.ptr, x.peerAddr))
    = a₀.lbPeers.map fun x => (x.ptr, x.peerAddr)
  cells : a.cellLocations = a₀.cellLocations
  scu : a.net.scu = a₀.net.scu

variable {L : Libosmo} {a₀ a : Service} {i j : Input} {t t' : Target} {n n' : Net} {m m' : Move}
  {addr : SccpAddr} {x : LbPeer}

theorem Within.refl (h : a.WF) : Within a a := ⟨h, fun _ hs => hs, rfl, rfl, rfl⟩

/-- A known address belongs to the same peer all the time. -/
theorem Within.find_peer (h : Within a₀ a)
    (hx : a₀.lbPeers.find? (fun x => L.sccpAddrRiCmp addr x.peerAddr = 0) = some x) :
    ∃ y, a.lbPeers.find? (fun x => L.sccpAddrRiCmp addr x.peerAddr = 0) = some y ∧
      y.ptr = x.ptr ∧ y.peerAddr = x.peerAddr := by
  let f : LbPeer → PeerPtr × SccpAddr := fun x => (x.ptr, x.peerAddr)
  have hmap : ∀ l : List LbPeer, (l.map f).find? (fun q => L.sccpAddrRiCmp addr q.2 = 0)
      = (l.find? fun x => L.sccpAddrRiCmp addr x.peerAddr = 0).map f := by
    intro l
    rw [List.find?_map]
    rfl
  have hfind := hmap a.lbPeers
  have hpeers : a.lbPeers.map f = a₀.lbPeers.map f := h.peers
  rw [hpeers, hmap a₀.lbPeers, hx] at hfind
  obtain ⟨y, hy, hyx⟩ := Option.map_eq_some_iff.mp hfind.symm
  exact ⟨y, hy, congrArg Prod.fst hyx, congrArg Prod.snd hyx⟩

theorem peer_found (hx : a.lbPeers.find? (fun x => L.sccpAddrRiCmp addr x.peerAddr = 0) = some x) :
    a.peer L addr = (x, a) := by
  simp only [peer, hx]

/-- Without a change to sessions and peers, only the network side moves. -/
theorem idle_apply (h : a.WF) (ev : Event) : (Move.idle ev).apply n a = a.setNet n := cut_all h

/-- An event on a connection that was listed. -/
theorem step_conn {s₀ : Session} (h : Within a₀ a) (h₀ : a₀.WF) (hs₀ : s₀ ∈ a₀.sessions)
    (hi : Concerns i.ev s₀) : ∃ n, a.step L i
        = .ok (((a.view (.conn s₀.conn)).move L i a.net.scu a.cellLocations).apply n a) ∧
      a.net.Does ((a.view (.conn s₀.conn)).move L i a.net.scu a.cellLocations).effect n := by
  have hsame : ∀ s ∈ a.sessions, s.conn = s₀.conn ∨ s.connId = s₀.connId ∨ s.req = s₀.req →
      s = s₀ := by
    intro s hs heq
    rcases heq with heq | heq | heq
    · exact List.inj_on_of_nodup_map h₀.conns (h.sessions s hs) hs₀ heq
    · exact List.inj_on_of_nodup_map h₀.connIds (h.sessions s hs) hs₀ heq
    · exact List.inj_on_of_nodup_map h₀.reqs (h.sessions s hs) hs₀ heq
  by_cases hmem : s₀ ∈ a.sessions
  · have hview : a.view (.conn s₀.conn) = .conn (some s₀) :=
      congrArg View.conn (KeyedList.lookup_of_mem h.wf.conns hmem)
    rw [hview]
    exact step_session h.wf hmem hi
  · have hview : a.view (.conn s₀.conn) = .conn none := by
      refine congrArg View.conn (KeyedList.lookup_eq_none_iff.mpr fun s hs heq => ?_)
      exact hmem (hsame s hs (.inl heq) ▸ hs)
    rw [hview]
    show ∃ n, a.step L i = .ok ((Move.idle i.ev).apply n a) ∧ a.net.Does (Move.idle i.ev).effect n
    obtain ⟨ev, io⟩ := i
    obtain ⟨l2, rfl⟩ | rfl := hi
    · have hnone : (a.setNet a.net.takeMsgb).sessions.find? (fun s => s.connId = s₀.connId)
          = none := by
        refine List.find?_eq_none.mpr fun s hs heq => hmem ?_
        exact hsame s hs (.inr (.inl (by simpa using heq))) ▸ hs
      have hstep : a.step L ⟨.scu (.nData s₀.connId l2), io⟩
          = .ok ((a.setNet a.net.takeMsgb).emit (.msgbFree a.net.nextMsgb)) := by
        show Except.ok (((a.setNet a.net.takeMsgb).data L io s₀.connId (L.msg l2)).emit
          (.msgbFree a.net.nextMsgb)) = _
        rw [(data_none hnone).1]
      refine ⟨_, hstep.trans ?_, Net.takeMsgb_does.free a.net.nextMsgb⟩
      rw [idle_apply h.wf]
      rfl
    · have hnone : a.sessions.find? (fun s => s.req = s₀.req) = none := by
        refine List.find?_eq_none.mpr fun s hs heq => hmem ?_
        exact hsame s hs (.inr (.inr (by simpa using heq))) ▸ hs
      have hstep : a.step L ⟨.locReqTimer s₀.req, io⟩ = .ok a := by
        show Except.ok (a.locReqTimeout L io s₀.req) = _
        rw [(locReqTimeout_none hnone).1]
      refine ⟨a.net, hstep.trans ?_, Net.Does.refl⟩
      rw [idle_apply h.wf]
      rfl

/-- A connectionless message from a known peer. -/
theorem step_unitdata {l2 : List UInt8} (h : a.WF) (hev : i.ev = .scu (.nUnitdata addr l2))
    (hx : a.lbPeers.find? (fun x => L.sccpAddrRiCmp addr x.peerAddr = 0) = some x) :
    ∃ n, a.step L i = .ok ((Move.ofPeer L i.io a.net.scu x
        (a.sessions.filter fun s => s.peer = x.ptr) i.ev).apply n a) ∧
      a.net.Does (Move.ofPeer L i.io a.net.scu x
        (a.sessions.filter fun s => s.peer = x.ptr) i.ev).effect n := by
  obtain ⟨ev, io⟩ := i
  cases hev
  have hpeer : a.peer L addr = (x, a) := peer_found hx
  have hpeer' : ∀ n, (a.setNet n).peer L addr = (x, a.setNet n) := by
    intro n
    rw [peer_setNet, hpeer]
  cases hm : L.bssmapLeMsgt l2 with
  | reset =>
    obtain ⟨n, hstep, hd⟩ := step_resetFrom (a := a) (i := ⟨.scu (.nUnitdata addr l2), io⟩) rfl hm
    rw [hpeer] at hstep hd
    simp only [Move.ofPeer, hm]
    exact ⟨n, hstep, hd⟩
  | resetAck =>
    let b := ((a.setNet a.net.takeMsgb).emit (.peerDispatch x.ptr x.fi.state .msgUpCl)).emit
      (.peerDispatch x.ptr x.fi.state .rxResetAck)
    have hstep : a.step L ⟨.scu (.nUnitdata addr l2), io⟩
        = .ok ((if x.fi.state = .waitRxResetAck then b.setPeer x.ptr .ready else b).emit
          (.msgbFree a.net.nextMsgb)) := by
      simp only [step, handle, rxPrim, unitdata, hm, hpeer']
      rfl
    have hd : b.net.Does .nil (b.net.emit (.msgbFree a.net.nextMsgb)) := Net.Does.refl.free _
    have hup : a.net.Does _ b.net :=
      ((Net.takeMsgb_does.emit (.peerDispatch x.ptr x.fi.state .msgUpCl) rfl).emit
        (.peerDispatch x.ptr x.fi.state .rxResetAck) rfl)
    have hall := hup.trans hd
    rw [Effect.append_nil] at hall
    refine ⟨b.net.emit (.msgbFree a.net.nextMsgb), hstep.trans ?_, ?_⟩
    · simp only [Move.ofPeer, hm, Move.apply]
      by_cases hst : x.fi.state = .waitRxResetAck
      · simp only [hst, ↓reduceIte, cut_all h]
        rfl
      · simp only [hst, ↓reduceIte, cut_all h]
        rfl
    · simp only [Move.ofPeer, hm]
      exact hall
  | other msgt =>
    let b := (a.setNet a.net.takeMsgb).emit (.peerDispatch x.ptr x.fi.state .msgUpCl)
    have hstep : a.step L ⟨.scu (.nUnitdata addr l2), io⟩
        = .ok (b.emit (.msgbFree a.net.nextMsgb)) := by
      simp only [step, handle, rxPrim, unitdata, hm, hpeer']
      rfl
    have hup : a.net.Does _ b.net :=
      Net.takeMsgb_does.emit (.peerDispatch x.ptr x.fi.state .msgUpCl) rfl
    refine ⟨b.net.emit (.msgbFree a.net.nextMsgb), hstep.trans ?_, ?_⟩
    · simp only [Move.ofPeer, hm, Move.apply, cut_all h]
      rfl
    · simp only [Move.ofPeer, hm]
      exact hup.free _

/-- The timer of a peer, known or not. -/
theorem step_lbPeerTimer {p : PeerPtr} (h : a.WF) (hev : i.ev = .lbPeerTimer p) :
    ∃ n, a.step L i = .ok (((a.view (.peer p)).move L i a.net.scu a.cellLocations).apply n a) ∧
      a.net.Does ((a.view (.peer p)).move L i a.net.scu a.cellLocations).effect n := by
  obtain ⟨ev, io⟩ := i
  cases hev
  have hall : a.cut (fun _ => true) a.net = a := cut_all h
  have hstep : a.step L ⟨.lbPeerTimer p, io⟩ = .ok (a.lbPeerTimeout p) := rfl
  cases hx : KeyedList.lookup LbPeer.ptr a.lbPeers p with
  | none =>
    refine ⟨a.net, hstep.trans ?_, ?_⟩
    · simp only [lbPeerTimeout, view, hx, View.move, Move.apply, Move.idle, hall]
    · simp only [view, hx, View.move, Move.idle]
      exact Net.Does.refl
  | some x =>
    have hp : x.ptr = p := (KeyedList.lookup_some_mem hx).2
    refine ⟨a.net, hstep.trans ?_, ?_⟩
    · simp only [lbPeerTimeout, view, hx, View.move, Move.ofPeer, Move.apply, Move.idle, hp]
      cases x.fi.timer with
      | true => simp only [↓reduceIte, hall]
      | false => simp only [Bool.false_eq_true, ↓reduceIte, hall]
    · simp only [view, hx, View.move, Move.ofPeer, Move.idle]
      exact Net.Does.refl

/-- An event for a target of `a₀` is a move that depends on the view of its target only. -/
theorem step_move (h : Within a₀ a) (h₀ : a₀.WF) (hi : a₀.target L i.ev = some t) :
    ∃ n, a.step L i = .ok (((a.view t).move L i a.net.scu a.cellLocations).apply n a) ∧
      a.net.Does ((a.view t).move L i a.net.scu a.cellLocations).effect n := by
  unfold target at hi
  split at hi
  · rename_i connId l2 hev
    obtain ⟨s, hs, rfl⟩ := Option.map_eq_some_iff.mp hi
    have hid : s.connId = connId := by simpa using List.find?_some hs
    exact step_conn h h₀ (List.mem_of_find?_eq_some hs) (.inl ⟨l2, hid ▸ hev⟩)
  · rename_i addr l2 hev
    obtain ⟨x, hx, rfl⟩ := Option.map_eq_some_iff.mp hi
    obtain ⟨y, hy, hyp, -⟩ := h.find_peer hx
    have hlook : KeyedList.lookup LbPeer.ptr a.lbPeers x.ptr = some y :=
      hyp ▸ KeyedList.lookup_of_mem h.wf.peerPtrs (List.mem_of_find?_eq_some hy)
    have hview : a.view (.peer x.ptr)
        = .peer (some y) (a.sessions.filter fun s => s.peer = y.ptr) := by
      rw [view, hlook, hyp]
    rw [hview]
    exact step_unitdata h.wf hev hy
  · rename_i r hev
    obtain ⟨s, hs, rfl⟩ := Option.map_eq_some_iff.mp hi
    have hr : s.req = r := by simpa using List.find?_some hs
    exact step_conn h h₀ (List.mem_of_find?_eq_some hs) (.inr (hr ▸ hev))
  · rename_i p hev
    cases hi
    exact step_lbPeerTimer h.wf hev
  · cases hi

section Local

/-- What a move for a target can do: the sessions that end are those of the target, and so
is the peer that changes. -/
def Move.Of (t : Target) (m : Move) : Prop :=
  match t with
  | .conn c => m.enter = none ∧ ∀ s, m.keep s = false → s.conn = c
  | .peer p => (∀ q st, m.enter = some (q, st) → q = p) ∧ ∀ s, m.keep s = false → s.peer = p

theorem move_of : Move.Of t ((a.view t).move L i a.net.scu a.cellLocations) := by
  cases t with
  | conn c =>
    cases hs : KeyedList.lookup Session.conn a.sessions c with
    | none =>
      have hview : a.view (.conn c) = .conn none := congrArg View.conn hs
      rw [hview]
      refine ⟨rfl, ?_⟩
      rintro s ⟨⟩
    | some s =>
      have hview : a.view (.conn c) = .conn (some s) := congrArg View.conn hs
      have hc : s.conn = c := (KeyedList.lookup_some_mem hs).2
      rw [hview]
      refine ⟨rfl, ?_⟩
      intro u hu
      by_contra hne
      have hk : staying L i.ev s u = true := staying_other (hc.symm ▸ hne)
      exact absurd (hk.symm.trans hu) (by simp)
  | peer p =>
    let ss := a.sessions.filter fun s => s.peer = p
    cases hx : KeyedList.lookup LbPeer.ptr a.lbPeers p with
    | none =>
      have hview : a.view (.peer p) = .peer none ss := congrArg (View.peer · ss) hx
      rw [hview]
      refine ⟨?_, ?_⟩
      · rintro q st ⟨⟩
      · rintro s ⟨⟩
    | some x =>
      have hview : a.view (.peer p) = .peer (some x) ss := congrArg (View.peer · ss) hx
      have hp : x.ptr = p := (KeyedList.lookup_some_mem hx).2
      rw [hview]
      show Move.Of (.peer p) (Move.ofPeer L i.io a.net.scu x _ i.ev)
      unfold Move.ofPeer
      split
      · dsimp only
        split
        · refine ⟨?_, ?_⟩
          · rintro q st ⟨⟩
            exact hp
          · intro s hs
            simpa [hp] using hs
        · refine ⟨?_, ?_⟩
          · intro q st hq
            dsimp only at hq
            split at hq
            · cases hq
              exact hp
            · cases hq
          · rintro s ⟨⟩
        · refine ⟨?_, ?_⟩
          · rintro q st ⟨⟩
          · rintro s ⟨⟩
      · refine ⟨?_, ?_⟩
        · intro q st hq
          dsimp only at hq
          split at hq
          · cases hq
            exact hp
          · cases hq
        · rintro s ⟨⟩
      · refine ⟨?_, ?_⟩
        · rintro q st ⟨⟩
        · rintro s ⟨⟩

theorem apply_sessions : (m.apply n a).sessions = a.sessions.filter m.keep := by
  unfold Move.apply
  split <;> rfl

theorem apply_net : (m.apply n a).net = n := by
  unfold Move.apply
  split <;> rfl

theorem apply_cells : (m.apply n a).cellLocations = a.cellLocations := by
  unfold Move.apply
  split <;> rfl

theorem apply_lbPeers (hm : m.enter = none) : (m.apply n a).lbPeers = a.lbPeers := by
  simp only [Move.apply, hm]
  rfl

theorem lookup_apply {p : PeerPtr} (hm : ∀ q st, m.enter = some (q, st) → q ≠ p) :
    KeyedList.lookup LbPeer.ptr (m.apply n a).lbPeers p
      = KeyedList.lookup LbPeer.ptr a.lbPeers p := by
  cases he : m.enter with
  | none => rw [apply_lbPeers he]
  | some e =>
    obtain ⟨q, st⟩ := e
    simp only [Move.apply, he]
    exact KeyedList.lookup_update_ne (fun _ => rfl) (hm q st he).symm

/-- A move leaves alone what is held for a target that its own one is independent of. -/
theorem view_apply (h : Within a₀ a) (hm : Move.Of t m) (hd : ¬a₀.Dependent t t') :
    (m.apply n a).view t' = a.view t' := by
  have hkeep : ∀ (f : Session → Bool), (∀ s ∈ a.sessions, f s = true → m.keep s = true) →
      (a.sessions.filter m.keep).filter f = a.sessions.filter f := by
    intro f hf
    rw [List.filter_filter]
    apply List.filter_congr
    intro s hs
    cases hfs : f s with
    | false => rfl
    | true => rw [hf s hs hfs, Bool.and_true]
  cases t' with
  | conn c' =>
    have hlook : KeyedList.lookup Session.conn (a.sessions.filter m.keep) c'
        = KeyedList.lookup Session.conn a.sessions c' := by
      apply KeyedList.lookup_filter
      intro s hs hsc
      by_contra hne
      have hfalse : m.keep s = false := by simpa using hne
      cases t with
      | conn c => exact hd ((hm.2 s hfalse).symm.trans hsc)
      | peer p => exact hd ⟨s, h.sessions s hs, hsc, hm.2 s hfalse⟩
    rw [view, apply_sessions, hlook]
    rfl
  | peer p' =>
    have hss : (a.sessions.filter m.keep).filter (fun s => s.peer = p')
        = a.sessions.filter fun s => s.peer = p' := by
      apply hkeep
      intro s hs hsp
      have hsp' : s.peer = p' := of_decide_eq_true hsp
      by_contra hne
      have hfalse : m.keep s = false := by simpa using hne
      cases t with
      | conn c => exact hd ⟨s, h.sessions s hs, hm.2 s hfalse, hsp'⟩
      | peer p => exact hd ((hm.2 s hfalse).symm.trans hsp')
    have hlook : KeyedList.lookup LbPeer.ptr (m.apply n a).lbPeers p'
        = KeyedList.lookup LbPeer.ptr a.lbPeers p' := by
      apply lookup_apply
      intro q st he
      cases t with
      | conn c =>
        rw [hm.1] at he
        cases he
      | peer p =>
        rw [hm.1 q st he]
        exact hd
    rw [view, apply_sessions, hlook, hss]
    rfl

theorem setPeer_comm {p q : PeerPtr} {st st' : LbPeerState} (hpq : p ≠ q) :
    (a.setPeer p st).setPeer q st' = (a.setPeer q st').setPeer p st := by
  let f : LbPeer → LbPeer := fun x => { x with fi := ⟨st, false, lbPeerFsm.timeout st⟩ }
  let f' : LbPeer → LbPeer := fun x => { x with fi := ⟨st', false, lbPeerFsm.timeout st'⟩ }
  have hupd : KeyedList.update LbPeer.ptr (KeyedList.update LbPeer.ptr a.lbPeers p f) q f'
      = KeyedList.update LbPeer.ptr (KeyedList.update LbPeer.ptr a.lbPeers q f') p f :=
    KeyedList.update_comm (fun _ => rfl) (fun _ => rfl) hpq
  exact congrArg (fun l => { a with lbPeers := l }) hupd

/-- Moves for independent targets commute, but for the network side. -/
theorem apply_comm {k k' : Net} (hm : Move.Of t m) (hm' : Move.Of t' m')
    (hd : ¬a₀.Dependent t t') : (m'.apply k (m.apply n a)) = ((m.apply k' (m'.apply n' a)).setNet k) := by
  have hcut : ∀ b : Service, (b.cut m.keep n).cut m'.keep k
      = ((b.cut m'.keep n').cut m.keep k').setNet k := by
    intro b
    have hc : (b.cut m.keep n).cut m'.keep k = (b.cut m'.keep n).cut m.keep k := cut_comm
    rw [hc]
    rfl
  unfold Move.apply
  cases he : m.enter with
  | none =>
    cases he' : m'.enter with
    | none => exact hcut a
    | some e' =>
      obtain ⟨q', st'⟩ := e'
      exact congrArg (setPeer q' st') (hcut a)
  | some e =>
    obtain ⟨q, st⟩ := e
    cases he' : m'.enter with
    | none => exact congrArg (setPeer q st) (hcut a)
    | some e' =>
      obtain ⟨q', st'⟩ := e'
      have hne : q ≠ q' := by
        cases t with
        | conn c => exact absurd (hm.1.symm.trans he) (by simp)
        | peer p =>
          cases t' with
          | conn c' => exact absurd (hm'.1.symm.trans he') (by simp)
          | peer p' =>
            rw [hm.1 q st he, hm'.1 q' st' he']
            exact hd
      have hswap : ((a.cut m.keep n).setPeer q st).setPeer q' st'
          = ((a.cut m.keep n).setPeer q' st').setPeer q st := setPeer_comm hne
      have hc := congrArg (fun b => (b.setPeer q st).setPeer q' st') (hcut a)
      show (((a.cut m.keep n).cut m'.keep k).setPeer q st).setPeer q' st' = _
      rw [hc]
      show (((((a.cut m'.keep n').cut m.keep k').setNet k).setPeer q st).setPeer q' st') = _
      rw [setPeer_comm hne]
      rfl

end Local

/-- A move goes on within the sessions and peers of `a₀`. -/
theorem Within.apply (h : Within a₀ a) (hw : (m.apply n a).WF) (hscu : n.scu = a.net.scu) :
    Within a₀ (m.apply n a) where
  wf := hw
  sessions := by
    intro s hs
    rw [apply_sessions] at hs
    exact h.sessions s (List.mem_filter.mp hs).1
  peers := by
    rw [← h.peers]
    unfold Move.apply
    split
    · exact KeyedList.map_update fun _ => rfl
    · rfl
  cells := by rw [apply_cells, h.cells]
  scu := by rw [apply_net, hscu, h.scu]

end Service
end OsmoSmlc
