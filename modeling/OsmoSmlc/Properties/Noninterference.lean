import OsmoSmlc.Model.Sample
import OsmoSmlc.Properties.Refinement
import OsmoSmlc.Service.Control

/-! Two runs side by side. The configured cells, and what becomes of the messages of a
connection, have no influence on peers, connections, requests and subscribers. -/
namespace OsmoSmlc
open Osmo

def Net.bare (n : Net) : Net := ⟨n.scu, ⟨0, 0, 0, 0⟩, 0, []⟩

/-- The state without the cells, the counters and the record. -/
def World.bare (w : World) : World := { w with cellLocations := [], net := w.net.bare }

/-- Commands come from the operator, all other events from the network or the clock. -/
def Event.isVty : Event → Bool
  | .vty _ => true
  | _ => false

theorem filter_control_seen (acts : List Act) :
    (acts.filterMap Act.seen).filter Act.control = acts.filter Act.control := by
  induction acts with
  | nil => rfl
  | cons act acts ih =>
    cases act with
    | bssapLeEnc pdu msg => exact ih
    | msgbFree msg => exact ih
    | sapDown req msg rc => exact ih
    | msgDownCo c r pdu => exact ih
    | peerDispatch p st ev =>
      simp only [List.filterMap_cons, Act.seen, List.filter_cons]
      rw [ih]
    | _ => exact congrArg (List.cons _) ih

theorem Net.Does.control {n n' : Net} {e : Effect} (h : n.Does e n') :
    ∃ acts, n'.log = n.log ++ acts ∧ acts.filter Act.control = e.control := by
  obtain ⟨acts, hlog, hacts⟩ := h.log
  refine ⟨acts, hlog, ?_⟩
  rw [← filter_control_seen acts, hacts]
  rfl

namespace Service

variable {L : Libosmo} {a a' b b' a₀ b₀ : Service} {i j : Input}

def bare (a : Service) : Service := a.overlay [] a.net.bare

theorem bare_wf (h : a.WF) : a.bare.WF := (h.setCells []).setNet _

theorem bare_iff : a.bare = b.bare ↔ Agrees a b ∧ a.net.scu = b.net.scu := by
  constructor
  · intro h
    have hover := congrArg (Service.overlay b.cellLocations b.net) h.symm
    have hnet : a.net.bare = b.net.bare := congrArg Service.net h
    exact ⟨⟨b.cellLocations, b.net, hover⟩, (congrArg Net.scu hnet :)⟩
  · rintro ⟨⟨c, n, rfl⟩, hscu⟩
    have hnet : a.net.bare = n.bare := congrArg (fun u => (⟨u, ⟨0, 0, 0, 0⟩, 0, []⟩ : Net)) hscu
    exact congrArg (fun k => a.overlay [] k) hnet

theorem bare_world (ha : a.WF) (hb : b.WF) (h : a.world.bare = b.world.bare) :
    a.bare = b.bare := by
  have hw : a.bare.world = b.bare.world := h
  have hs : a.bare.world.service = b.bare.world.service := congrArg World.service hw
  rwa [service_world (bare_wf ha), service_world (bare_wf hb)] at hs

/-- Two services with the same objects, which have decided the same since `a₀` and `b₀`. -/
structure DecidesAlike (a₀ b₀ a b : Service) : Prop where
  bare : a.bare = b.bare
  acts : ∃ k l, a.net.log = a₀.net.log ++ k ∧ b.net.log = b₀.net.log ++ l ∧
    k.filter Act.control = l.filter Act.control

/-- Equal events are handled alike where the RESET procedure is answered alike. -/
theorem DecidesAlike.step (h : DecidesAlike a₀ b₀ a b) (hev : i.ev = j.ev) (hio : i.io.SameResets j.io) :
    SameOutcome (DecidesAlike a₀ b₀) (a.step L i) (b.step L j) := by
  obtain ⟨hab, hscu⟩ := bare_iff.mp h.bare
  obtain ⟨k, l, hk, hl, hkl⟩ := h.acts
  have hobj : SameOutcome Agrees (a.step L i) (b.step L j) := by
    unfold Service.step
    rw [hev]
    exact hab.handle hscu hio
  refine hobj.mono fun a' b' ha hb hab' => ⟨bare_iff.mpr ⟨hab', ?_⟩, ?_⟩
  · rw [(step_does ha).scu, (step_does hb).scu, hscu]
  · obtain ⟨acts, hlog, hacts⟩ := (step_does ha).control
    obtain ⟨acts', hlog', hacts'⟩ := (step_does hb).control
    refine ⟨k ++ acts, l ++ acts', ?_, ?_, ?_⟩
    · rw [hlog, hk, List.append_assoc]
    · rw [hlog', hl, List.append_assoc]
    · rw [List.filter_append, List.filter_append, hkl, hacts, hacts', hab.effect hev]

/-- A command of the operator does not show. -/
theorem step_vty (hi : i.ev.isVty = true) :
    ∃ a', a.step L i = .ok a' ∧ a'.bare = a.bare ∧ a'.net.log = a.net.log := by
  obtain ⟨ev, io⟩ := i
  cases ev with
  | vty cmd => exact ⟨_, rfl, rfl, rfl⟩
  | _ => cases hi

theorem decidesAlike_lockStep : LockStep (step L) (step L) (DecidesAlike a₀ b₀)
    (fun i => i.ev.isVty) (fun i => i.ev.isVty)
    (fun i j => i.ev = j.ev ∧ i.io.SameResets j.io) where
  left a b i h hi := by
    obtain ⟨a', ha, hc, hlog⟩ := step_vty hi
    obtain ⟨k, l, hk, hl⟩ := h.acts
    exact ⟨a', ha, hc.trans h.bare, k, l, hlog.trans hk, hl⟩
  right a b j h hj := by
    obtain ⟨b', hb, hc, hlog⟩ := step_vty hj
    obtain ⟨k, l, hk, hl, hkl⟩ := h.acts
    exact ⟨b', hb, h.bare.trans hc.symm, k, l, hk, hlog.trans hl, hkl⟩
  both a b i j h hij := h.step hij.1 hij.2

theorem DecidesAlike.world (h : DecidesAlike a₀ b₀ a b) : a.world.bare = b.world.bare ∧
    (newActs a₀.world a.world).filter Act.control = (newActs b₀.world b.world).filter Act.control := by
  obtain ⟨k, l, hk, hl, hkl⟩ := h.acts
  refine ⟨congrArg Service.world h.bare, ?_⟩
  have hk' : newActs a₀.world a.world = k := newActs_eq hk
  have hl' : newActs b₀.world b.world = l := newActs_eq hl
  rw [hk', hl', hkl]

end Service

/-- Two histories with the same events from the network and the same timeouts, in which the
SCCP layer accepts the messages of the RESET procedure alike: whatever is configured in
between, whatever becomes of the other messages, and whatever was on record before, the process
fails in both or in neither, it keeps the same objects, and it takes the same decisions in the
same order. -/
theorem run_noninterference (L : Libosmo) {w w' : World} (hw : ReachableWorld L w)
    (hw' : ReachableWorld L w') (hc : w.bare = w'.bare) {is js : List Input}
    (hij : List.Forall₂ (fun i j => i.ev = j.ev ∧ i.io.SameResets j.io)
      (is.filter fun i => !i.ev.isVty) (js.filter fun j => !j.ev.isVty)) :
    SameOutcome (fun u v : World => u.bare = v.bare ∧
        (newActs w u).filter Act.control = (newActs w' v).filter Act.control)
      (run (step L) w is) (run (step L) w' js) := by
  obtain ⟨scu, a, -, ha, rfl⟩ := hw.service
  obtain ⟨scu', b, -, hb, rfl⟩ := hw'.service
  have hstart : Service.DecidesAlike a b a b :=
    ⟨Service.bare_world ha hb hc, [], [], (List.append_nil _).symm, (List.append_nil _).symm, rfl⟩
  have h : SameOutcome (Service.DecidesAlike a b) _ _ :=
    (Service.decidesAlike_lockStep (L := L)).run hstart hij
  rw [run_world L ha, run_world L hb]
  generalize run (Service.step L) a is = x at h
  generalize run (Service.step L) b js = y at h
  cases h with
  | ok h => exact .ok h.world
  | error e => exact .error e

/-- The messages of connections are lost, all others are sent. -/
def Sample.ioLosing : Io where
  bssapLeEnc _ := true
  sapDown
    | .nData _ _ => -5
    | _ => 0

/-- A request is answered, in one run with the position of a cell that is configured there, and
in the other, after a second RESET, in vain. -/
theorem run_noninterference_lost :
    let request : Event := .scu (.nConnect 1 Sample.addrA Sample.msgRequestA)
    let response : Event := .scu (.nData 1 Sample.msgTaResponse)
    let w := Sample.after [Sample.resetFrom Sample.addrA]
    let w' := Sample.after [Sample.resetFrom Sample.addrA, Sample.resetFrom Sample.addrA]
    SameOutcome (fun u v : World => u.bare = v.bare ∧
        (newActs w u).filter Act.control = (newActs w' v).filter Act.control)
      (run (step Sample.libosmo) w [⟨.vty (.lacCi "23" "42" "1" "2"), Sample.io⟩,
        ⟨request, Sample.io⟩, ⟨response, Sample.io⟩])
      (run (step Sample.libosmo) w' [⟨request, Sample.ioLosing⟩, ⟨response, Sample.ioLosing⟩]) := by
  intro request response w w'
  have hr : ReachableWorld Sample.libosmo w := Sample.reachable (by decide +kernel)
  have hr' : ReachableWorld Sample.libosmo w' := Sample.reachable (by decide +kernel)
  have hlost : Sample.io.SameResets Sample.ioLosing := ⟨fun _ _ => rfl, fun _ _ => rfl⟩
  refine run_noninterference Sample.libosmo hr hr' (by decide +kernel) ?_
  exact .cons ⟨rfl, hlost⟩ (.cons ⟨rfl, hlost⟩ .nil)

end OsmoSmlc
