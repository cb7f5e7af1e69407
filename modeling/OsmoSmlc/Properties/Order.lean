import OsmoSmlc.Core.Schedule
import OsmoSmlc.Properties.Independence
import OsmoSmlc.Properties.ObjectGraph
import OsmoSmlc.Service.Moves

/-! Messages on listed connections, connectionless messages from known peers and the timers
of both may come in any order that keeps the events of each connection and of its peer in
place: the process ends in the same state and has sent the same. -/
namespace OsmoSmlc
open Osmo

/-- The connection or the peer that an event is for, where there is one. -/
def World.target (L : Libosmo) (w : World) : Event → Option Target
  | .scu (.nData connId _) => (w.connById connId).map fun x => .conn x.ptr
  | .scu (.nUnitdata addr _) => (w.lbPeerFind L addr).map fun x => .peer x.ptr
  | .locReqTimer r =>
      (w.lbConns.find? fun x => x.smlcLocReq = some r).map fun x => .conn x.ptr
  | .lbPeerTimer p => some (.peer p)
  | _ => none

/-- A target and itself, and a peer and its connections. -/
def World.Dependent (w : World) : Target → Target → Prop
  | .conn c, .conn c' => c = c'
  | .peer p, .peer p' => p = p'
  | .conn c, .peer p | .peer p, .conn c => ∃ x ∈ w.lbConns, x.ptr = c ∧ x.lbPeer = some p

section Sent

variable {connId : ConnId} {addr : SccpAddr} {acts acts' : List Act} {n n' : Net} {e : Effect}

theorem sentOn_append : sentOn connId (acts ++ acts') = sentOn connId acts ++ sentOn connId acts' := by
  simp [sentOn]

theorem sentTo_append : sentTo addr (acts ++ acts') = sentTo addr acts ++ sentTo addr acts' := by
  simp [sentTo]

theorem Net.Does.sentOn_log (h : n.Does e n') : sentOn connId n'.log
    = sentOn connId n.log ++ e.acts.filter fun act => act.connId? = some connId := by
  obtain ⟨acts, hlog, hseen⟩ := h.log
  rw [hlog, sentOn_append, ← hseen]
  rfl

theorem Net.Does.sentTo_log (h : n.Does e n') : sentTo addr n'.log
    = sentTo addr n.log ++ e.acts.filter fun act => act.called? = some addr := by
  obtain ⟨acts, hlog, hseen⟩ := h.log
  rw [hlog, sentTo_append, ← hseen]
  rfl

end Sent

namespace Service

variable {L : Libosmo} {a₀ a b : Service} {i j : Input} {t t' : Target} {n : Net} {m : Move}
  {act : Act} {scu : Bool} {cells : CellStore}

theorem target_world (L : Libosmo) (a : Service) (ev : Event) :
    a.world.target L ev = a.target L ev := by
  cases ev with
  | scu prim =>
    cases prim with
    | nData connId l2 =>
      simp only [World.target, target, connById_world, Option.map_map]
      rfl
    | _ => rfl
  | locReqTimer r =>
    simp only [World.target, target, world, List.find?_map, Option.map_map, Function.comp_def,
      Session.lbConn, Option.some.injEq]
  | lbPeerTimer p => rfl
  | vty cmd => rfl

theorem dependent_world : a.world.Dependent t t' ↔ a.Dependent t t' := by
  have hlisted : ∀ c p, (∃ x ∈ a.world.lbConns, x.ptr = c ∧ x.lbPeer = some p) ↔
      ∃ s ∈ a.sessions, s.conn = c ∧ s.peer = p := by
    intro c p
    simp [world, Session.lbConn]
  cases t with
  | conn c =>
    cases t' with
    | conn c' => exact Iff.rfl
    | peer p => exact hlisted c p
  | peer p =>
    cases t' with
    | conn c => exact hlisted c p
    | peer p' => exact Iff.rfl

/-- The same but for the order in which things were recorded. -/
structure Alike (a b : Service) : Prop where
  state : a.setNet { a.net with log := [] } = b.setNet { b.net with log := [] }
  sentOn : ∀ connId, sentOn connId a.net.log = sentOn connId b.net.log
  sentTo : ∀ addr, sentTo addr a.net.log = sentTo addr b.net.log

theorem alike_equivalence : Equivalence Alike where
  refl _ := ⟨rfl, fun _ => rfl, fun _ => rfl⟩
  symm h := ⟨h.state.symm, fun c => (h.sentOn c).symm, fun p => (h.sentTo p).symm⟩
  trans h h' := ⟨h.state.trans h'.state, fun c => (h.sentOn c).trans (h'.sentOn c),
    fun p => (h.sentTo p).trans (h'.sentTo p)⟩

theorem Alike.eq (h : a.Alike b) : b = a.setNet b.net :=
  (congrArg (setNet b.net) h.state).symm

theorem Alike.net (h : a.Alike b) : { a.net with log := [] } = { b.net with log := [] } :=
  congrArg Service.net h.state

theorem apply_setNet (m : Move) (n k : Net) (a : Service) :
    (m.apply n a).setNet k = m.apply k a := by
  unfold Move.apply
  split <;> rfl

theorem apply_after (m : Move) (n k : Net) (a : Service) :
    m.apply n (a.setNet k) = m.apply n a := by
  unfold Move.apply
  split <;> rfl

theorem view_setNet (n : Net) (a : Service) (t : Target) : (a.setNet n).view t = a.view t := by
  cases t <;> rfl

/-- Where the events of a target send. -/
def SentFor (a : Service) (t : Target) (act : Act) : Prop :=
  match t with
  | .conn c => act.called? = none ∧
      (act.connId? = none ∨ ∃ s ∈ a.sessions, s.conn = c ∧ act.connId? = some s.connId)
  | .peer p => act.connId? = none ∧
      (act.called? = none ∨ ∃ x ∈ a.lbPeers, x.ptr = p ∧ act.called? = some x.peerAddr)

theorem idle_acts (ev : Event) : (Move.idle ev).effect.acts = [] := by
  unfold Move.idle
  dsimp only
  split <;> rfl

/-- An event of a peer sends nothing on a connection, and only to the peer itself. -/
theorem ofPeer_sent {io : Io} {x : LbPeer} {ss : List Session} {ev : Event}
    (ha : act ∈ (Move.ofPeer L io scu x ss ev).effect.acts) :
    act.connId? = none ∧ (act.called? = none ∨ act.called? = some x.peerAddr) := by
  have hdisc : ∀ ss : List Session, act ∈ (Effect.discardAll x.ptr ss).acts →
      act.called? = none := by
    intro ss
    induction ss with
    | nil =>
      intro hm
      cases hm
    | cons s ss ih =>
      intro hm
      rcases List.mem_append.mp hm with hm | hm
      · simp only [Effect.discarded, Effect.acts_append, Effect.acts_act, List.append_assoc,
          List.mem_append, List.mem_singleton] at hm
        rcases hm with rfl | rfl | rfl <;> rfl
      · exact ih hm
  unfold Move.ofPeer at ha
  split at ha
  · dsimp only at ha
    split at ha
    · refine ⟨resetEffect_sent ha, ?_⟩
      simp only [resetEffect, Effect.acts_append, Effect.acts_msgb, Effect.acts_act,
        List.nil_append, List.mem_append, List.mem_singleton] at ha
      rcases ha with ((rfl | rfl) | ha) | ha
      · exact .inl rfl
      · exact .inl rfl
      · exact .inl (hdisc ss ha)
      · obtain ⟨rc, rfl⟩ := Effect.sendCl_acts ha
        exact .inr rfl
    · simp only [Effect.acts_append, Effect.acts_msgb, Effect.acts_act, List.nil_append,
        List.mem_append, List.mem_singleton] at ha
      rcases ha with rfl | rfl
      · exact ⟨rfl, .inl rfl⟩
      · exact ⟨rfl, .inl rfl⟩
    · simp only [Effect.acts_append, Effect.acts_msgb, Effect.acts_act, List.nil_append,
        List.mem_singleton] at ha
      subst ha
      exact ⟨rfl, .inl rfl⟩
  · rw [show (_ : Move).effect.acts = [] from idle_acts (.lbPeerTimer _)] at ha
    cases ha
  · rw [idle_acts] at ha
    cases ha

theorem move_sent (h : Within a₀ a)
    (ha : act ∈ ((a.view t).move L i scu cells).effect.acts) : a₀.SentFor t act := by
  cases t with
  | conn c =>
    cases hs : KeyedList.lookup Session.conn a.sessions c with
    | none =>
      have hview : a.view (.conn c) = .conn none := congrArg View.conn hs
      rw [hview] at ha
      have hnil : act ∈ (Move.idle i.ev).effect.acts := ha
      rw [idle_acts] at hnil
      cases hnil
    | some s =>
      have hview : a.view (.conn c) = .conn (some s) := congrArg View.conn hs
      obtain ⟨hmem, hc⟩ := KeyedList.lookup_some_mem hs
      rw [hview] at ha
      obtain ⟨hcalled, hconn⟩ := sessionEffect_sent ha
      exact ⟨hcalled, hconn.imp_right fun hid => ⟨s, h.sessions s hmem, hc, hid⟩⟩
  | peer p =>
    let ss := a.sessions.filter fun s => s.peer = p
    cases hx : KeyedList.lookup LbPeer.ptr a.lbPeers p with
    | none =>
      have hview : a.view (.peer p) = .peer none ss := congrArg (View.peer · ss) hx
      rw [hview] at ha
      have hnil : act ∈ (Move.idle i.ev).effect.acts := ha
      rw [idle_acts] at hnil
      cases hnil
    | some x =>
      have hview : a.view (.peer p) = .peer (some x) ss := congrArg (View.peer · ss) hx
      obtain ⟨hmem, hp⟩ := KeyedList.lookup_some_mem hx
      rw [hview] at ha
      obtain ⟨hconn, hcalled⟩ := ofPeer_sent ha
      refine ⟨hconn, hcalled.imp_right fun haddr => ?_⟩
      have hmap : (x.ptr, x.peerAddr) ∈ a₀.lbPeers.map fun x => (x.ptr, x.peerAddr) :=
        h.peers ▸ List.mem_map_of_mem hmem
      obtain ⟨y, hy, hyx⟩ := List.mem_map.mp hmap
      have hyp : y.ptr = x.ptr := congrArg Prod.fst hyx
      have hya : y.peerAddr = x.peerAddr := congrArg Prod.snd hyx
      exact ⟨y, hy, hyp.trans hp, haddr.trans (congrArg some hya.symm)⟩

/-- Independent targets do not send to the same place. -/
theorem sent_apart (h : a.WF) (hd : a.Distinct L) (hri : L.RiCmpEquivalence)
    (ht : ¬a.Dependent t t') {e f : Effect} (he : ∀ act ∈ e.acts, a.SentFor t act)
    (hf : ∀ act ∈ f.acts, a.SentFor t' act) :
    (∀ connId, (∀ act ∈ e.acts, act.connId? ≠ some connId) ∨
      ∀ act ∈ f.acts, act.connId? ≠ some connId) ∧
    ∀ addr, (∀ act ∈ e.acts, act.called? ≠ some addr) ∨ ∀ act ∈ f.acts, act.called? ≠ some addr := by
  have haddrs : (a.lbPeers.map LbPeer.peerAddr).Nodup := by
    refine List.pairwise_map.mpr (hd.addrs.imp ?_)
    intro x y hxy heq
    exact hxy (heq ▸ hri.refl _)
  have hnone : ∀ {α : Type} {o : Option α} {v : α}, o = none → o ≠ some v := by
    rintro α o v rfl ⟨⟩
  cases t with
  | conn c =>
    refine ⟨fun connId => ?_, fun addr => .inl fun act hact => hnone (he act hact).1⟩
    cases t' with
    | peer p' => exact .inr fun act hact => hnone (hf act hact).1
    | conn c' =>
      by_cases hc : ∃ s ∈ a.sessions, s.conn = c ∧ s.connId = connId
      · obtain ⟨s, hs, hsc, hsid⟩ := hc
        refine .inr fun act hact heq => ?_
        rcases (hf act hact).2 with hn | ⟨u, hu, huc, hid⟩
        · exact hnone hn heq
        · have hids : u.connId = s.connId :=
            (Option.some.inj (hid.symm.trans heq)).trans hsid.symm
          have hus : u = s := List.inj_on_of_nodup_map h.connIds hu hs hids
          exact ht (hsc.symm.trans (hus ▸ huc))
      · refine .inl fun act hact heq => ?_
        rcases (he act hact).2 with hn | ⟨s, hs, hsc, hid⟩
        · exact hnone hn heq
        · exact hc ⟨s, hs, hsc, Option.some.inj (hid.symm.trans heq)⟩
  | peer p =>
    refine ⟨fun connId => .inl fun act hact => hnone (he act hact).1, fun addr => ?_⟩
    cases t' with
    | conn c' => exact .inr fun act hact => hnone (hf act hact).1
    | peer p' =>
      by_cases hp : ∃ x ∈ a.lbPeers, x.ptr = p ∧ x.peerAddr = addr
      · obtain ⟨x, hx, hxp, hxa⟩ := hp
        refine .inr fun act hact heq => ?_
        rcases (hf act hact).2 with hn | ⟨y, hy, hyp, hya⟩
        · exact hnone hn heq
        · have haddr : y.peerAddr = x.peerAddr :=
            (Option.some.inj (hya.symm.trans heq)).trans hxa.symm
          have hyx : y = x := List.inj_on_of_nodup_map haddrs hy hx haddr
          exact ht (hxp.symm.trans (hyx ▸ hyp))
      · refine .inl fun act hact heq => ?_
        rcases (he act hact).2 with hn | ⟨x, hx, hxp, hxa⟩
        · exact hnone hn heq
        · exact hp ⟨x, hx, hxp, Option.some.inj (hxa.symm.trans heq)⟩

/-- Events depend on one another where their targets do. -/
def DependentOn (a : Service) : Option Target → Option Target → Prop
  | some t, some t' => a.Dependent t t'
  | none, none => True
  | _, _ => False

/-- Steps for listed targets, from services within `a₀`. -/
theorem exchangeable (h₀ : a₀.WF) (hd : a₀.Distinct L) (hri : L.RiCmpEquivalence) :
    Exchangeable (step L) (Within a₀) (fun i => (a₀.target L i.ev).isSome)
      (fun i j => ¬a₀.DependentOn (a₀.target L i.ev) (a₀.target L j.ev)) Alike where
  equiv := alike_equivalence
  total := by
    intro a i h hi
    obtain ⟨t, ht⟩ := Option.isSome_iff_exists.mp hi
    obtain ⟨n, hstep, hdoes⟩ := step_move h h₀ ht
    exact ⟨_, hstep, h.apply (step_wf h.wf hstep) hdoes.scu⟩
  congr := by
    intro a b i a' b' ha hb hi hR hsa hsb
    obtain ⟨t, ht⟩ := Option.isSome_iff_exists.mp hi
    obtain ⟨n, hstep, hdoes⟩ := step_move ha h₀ ht
    obtain ⟨n', hstep', hdoes'⟩ := step_move hb h₀ ht
    have hview : b.view t = a.view t := by
      rw [hR.eq]
      exact view_setNet b.net a t
    have hnet := hR.net
    have hscu : b.net.scu = a.net.scu := (congrArg Net.scu hnet).symm
    have hcells : b.cellLocations = a.cellLocations := by rw [hR.eq]; rfl
    rw [hview, hscu, hcells] at hstep' hdoes'
    cases hstep.symm.trans hsa
    cases hstep'.symm.trans hsb
    let m := (a.view t).move L i a.net.scu a.cellLocations
    have hctrs : n.ctrs = n'.ctrs := by
      rw [hdoes.ctrs, hdoes'.ctrs]
      exact congrArg (· + m.effect.ctrs) (congrArg Net.ctrs hnet :)
    have hmsgb : n.nextMsgb = n'.nextMsgb := by
      rw [hdoes.nextMsgb, hdoes'.nextMsgb]
      exact congrArg (· + m.effect.msgbs) (congrArg Net.nextMsgb hnet :)
    have hscu' : n.scu = n'.scu := (hdoes.scu.trans hscu.symm).trans hdoes'.scu.symm
    have hn : { n with log := [] } = { n' with log := [] } := by
      rw [hctrs, hmsgb, hscu']
    refine ⟨?_, ?_, ?_⟩
    · rw [apply_net, apply_net, apply_setNet, apply_setNet, hR.eq, apply_after]
      exact congrArg (fun k => m.apply k a) hn
    · intro connId
      rw [apply_net, apply_net, hdoes.sentOn_log, hdoes'.sentOn_log, hR.sentOn]
    · intro addr
      rw [apply_net, apply_net, hdoes.sentTo_log, hdoes'.sentTo_log, hR.sentTo]
  swap := by
    intro a i j u v u' v' ha hi hj hij hu hv hu' hv'
    obtain ⟨t, ht⟩ := Option.isSome_iff_exists.mp hi
    obtain ⟨t', ht'⟩ := Option.isSome_iff_exists.mp hj
    have htt : ¬a₀.Dependent t t' := by
      rw [ht, ht'] at hij
      exact hij
    have htt' : ¬a₀.Dependent t' t := fun hdep => htt (dependent_symm hdep)
    obtain ⟨n, hstep, hd₁⟩ := step_move ha h₀ ht
    obtain ⟨n', hstep', hd₁'⟩ := step_move ha h₀ ht'
    cases hstep.symm.trans hu
    cases hstep'.symm.trans hu'
    let m := (a.view t).move L i a.net.scu a.cellLocations
    let m' := (a.view t').move L j a.net.scu a.cellLocations
    have hm : Move.Of t m := move_of
    have hm' : Move.Of t' m' := move_of
    obtain ⟨k, hthen, hd₂⟩ := step_move (ha.apply (step_wf ha.wf hstep) hd₁.scu) h₀ ht'
    obtain ⟨k', hthen', hd₂'⟩ := step_move (ha.apply (step_wf ha.wf hstep') hd₁'.scu) h₀ ht
    rw [view_apply ha hm htt, apply_net, apply_cells, hd₁.scu] at hthen hd₂
    rw [view_apply ha hm' htt', apply_net, apply_cells, hd₁'.scu] at hthen' hd₂'
    cases hthen.symm.trans hv
    cases hthen'.symm.trans hv'
    have hef : a.net.Does (m.effect ++ m'.effect) k := hd₁.trans hd₂
    have hfe : a.net.Does (m'.effect ++ m.effect) k' := hd₁'.trans hd₂'
    have hk : { k' with log := k.log } = k := hef.exchange hfe
    obtain ⟨hconn, haddr⟩ := sent_apart h₀ hd hri htt
      (fun act hact => move_sent ha hact) (fun act hact => move_sent ha hact)
    refine ⟨?_, ?_, ?_⟩
    · have hcomm : m'.apply k (m.apply n a) = (m.apply k' (m'.apply n' a)).setNet k :=
        apply_comm hm hm' htt
      rw [apply_net, apply_net]
      show (m'.apply k (m.apply n a)).setNet _ = (m.apply k' (m'.apply n' a)).setNet _
      rw [hcomm, ← hk]
      rfl
    · intro connId
      rw [apply_net, apply_net, hef.sentOn_log, hfe.sentOn_log]
      congr 1
      exact filter_append_comm ((hconn connId).imp
        (fun h act hact => decide_eq_false (h act hact))
        fun h act hact => decide_eq_false (h act hact))
    · intro addr
      rw [apply_net, apply_net, hef.sentTo_log, hfe.sentTo_log]
      congr 1
      exact filter_append_comm ((haddr addr).imp
        (fun h act hact => decide_eq_false (h act hact))
        fun h act hact => decide_eq_false (h act hact))

/-- The record only grows. -/
theorem run_log {is : List Input} {a' : Service} (hr : run (step L) a is = .ok a') :
    ∃ acts, a'.net.log = a.net.log ++ acts := by
  refine run_invariant (I := fun b => ∃ acts, b.net.log = a.net.log ++ acts) ?_
    ⟨[], (List.append_nil _).symm⟩ hr
  rintro b i b' ⟨acts, hb⟩ hs
  obtain ⟨acts', hlog, -⟩ := (step_does hs).log
  exact ⟨acts ++ acts', by rw [hlog, hb, List.append_assoc]⟩

end Service

/-- Two orders of events for listed connections and known peers, which agree on every
connection together with its peer: both are handled, the state is the same, and the same
messages are sent on each connection and to each peer. -/
theorem run_order (L : Libosmo) (hri : L.RiCmpEquivalence) {w : World} (h : ReachableWorld L w)
    {is js : List Input} (his : ∀ i ∈ is, (w.target L i.ev).isSome)
    (hjs : ∀ j ∈ js, (w.target L j.ev).isSome)
    (horder : ∀ t t', w.Dependent t t' →
      is.filter (fun i => w.target L i.ev = some t ∨ w.target L i.ev = some t')
        = js.filter fun i => w.target L i.ev = some t ∨ w.target L i.ev = some t') :
    ∃ u v, run (step L) w is = .ok u ∧ run (step L) w js = .ok v ∧ u.forget = v.forget ∧
      (∀ connId, sentOn connId (newActs w u) = sentOn connId (newActs w v)) ∧
      ∀ addr, sentTo addr (newActs w u) = sentTo addr (newActs w v) := by
  obtain ⟨scu, a, hr, hwf, rfl⟩ := h.service
  simp only [Service.target_world] at his hjs horder
  have hx := Service.exchangeable hwf (Service.reachable_distinct hr) hri
  have hre : Reordered (fun i j => ¬a.DependentOn (a.target L i.ev) (a.target L j.ev)) is js := by
    let key : Input → Option Target := fun i => a.target L i.ev
    refine @reordered_of_atKeys _ _ is js _ key a.DependentOn ?_ ?_ ?_
    · intro k
      cases k with
      | none => trivial
      | some t => exact Service.dependent_refl t
    · intro k l hkl
      cases k with
      | none =>
        cases l with
        | none => trivial
        | some t => exact hkl
      | some t =>
        cases l with
        | none => exact hkl
        | some t' => exact Service.dependent_symm hkl
    · intro k l hkl
      cases k with
      | none =>
        cases l with
        | some t => cases hkl
        | none =>
          have hno : ∀ ks : List Input, (∀ i ∈ ks, (a.target L i.ev).isSome) →
              atKeys (fun i : Input => a.target L i.ev) none none ks = [] := by
            intro ks hks
            refine List.filter_eq_nil_iff.mpr fun i hi hn => ?_
            have hs := hks i hi
            simp only [or_self, decide_eq_true_eq] at hn
            rw [hn] at hs
            cases hs
          rw [hno is his, hno js hjs]
      | some t =>
        cases l with
        | none => cases hkl
        | some t' => exact horder t t' (Service.dependent_world.mpr hkl)
  obtain ⟨u, v, hu, hv, hR⟩ := hx.run_reordered hre (Service.Within.refl hwf) his
  have hnew : ∀ {u : Service} {ks : List Input}, run (Service.step L) a ks = .ok u →
      u.net.log = a.net.log ++ newActs a.world u.world := by
    intro u ks hu
    obtain ⟨acts, hacts⟩ := Service.run_log hu
    have heq : newActs a.world u.world = acts := newActs_eq hacts
    rw [hacts, heq]
  refine ⟨u.world, v.world, ?_, ?_, congrArg Service.world hR.state, ?_, ?_⟩
  · rw [run_world L hwf, hu]
    rfl
  · rw [run_world L hwf, hv]
    rfl
  · intro connId
    have hon := hR.sentOn connId
    rw [hnew hu, hnew hv, sentOn_append, sentOn_append] at hon
    exact List.append_cancel_left hon
  · intro addr
    have hto := hR.sentTo addr
    rw [hnew hu, hnew hv, sentTo_append, sentTo_append] at hto
    exact List.append_cancel_left hto

/-- Two connections of one peer, and the RESET of another. -/
theorem run_order_three :
    let w := Sample.after (Sample.twoConns ++ [Sample.resetFrom Sample.addrB])
    let i := Sample.data 1 Sample.msgAbort
    let j := Sample.resetFrom Sample.addrB
    let k := Sample.data 2 Sample.msgTaResponse
    ∃ u v, run (step Sample.libosmo) w [i, j, k] = .ok u ∧
      run (step Sample.libosmo) w [k, i, j] = .ok v ∧ u.forget = v.forget := by
  intro w i j k
  have hr : ReachableWorld Sample.libosmo w := Sample.reachable (by decide +kernel)
  have hi : w.target Sample.libosmo i.ev = some (.conn 0) := by decide +kernel
  have hj : w.target Sample.libosmo j.ev = some (.peer 1) := by decide +kernel
  have hk : w.target Sample.libosmo k.ev = some (.conn 1) := by decide +kernel
  have hpeers : ∀ x ∈ w.lbConns, x.lbPeer = some 0 := by decide +kernel
  obtain ⟨u, v, hu, hv, hf, -⟩ := @run_order Sample.libosmo Sample.libosmo_riCmp w hr
    [i, j, k] [k, i, j] (by simp [hi, hj, hk]) (by simp [hi, hj, hk]) (by
      intro t t' ht
      have hone : ∀ {c : ConnPtr}, w.Dependent (.conn c) (.peer 1) → False := by
        rintro c ⟨x, hx, -, hp⟩
        cases (hpeers x hx).symm.trans hp
      simp only [List.filter_cons, List.filter_nil, hi, hj, hk, Option.some.injEq]
      cases t with
      | conn c =>
        cases t' with
        | conn c' =>
          cases ht
          by_cases h0 : 0 = c
          · simp [← h0]
          · by_cases h1 : 1 = c <;> simp [h0, h1]
        | peer p =>
          have hp : 1 ≠ p := fun h => hone (h ▸ ht)
          by_cases h0 : 0 = c
          · simp [← h0, hp]
          · by_cases h1 : 1 = c
            · simp [← h1, hp]
            · simp [h0, h1, hp]
      | peer p =>
        cases t' with
        | conn c =>
          have hp : 1 ≠ p := fun h => hone (c := c) (h ▸ ht)
          by_cases h0 : 0 = c
          · simp [← h0, hp]
          · by_cases h1 : 1 = c
            · simp [← h1, hp]
            · simp [h0, h1, hp]
        | peer p' =>
          cases ht
          by_cases h1 : 1 = p <;> simp [h1])
  exact ⟨u, v, hu, hv, hf⟩

end OsmoSmlc
