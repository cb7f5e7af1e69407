import OsmoSmlc.Service.Record

/-! What every recorded act keeps to: requests and messages of a connection are handled
for peers in READY only, what is sent on a connection belongs to a request, and no peer is
ever met in DISCARDING. -/
namespace OsmoSmlc
open Osmo

def Act.Orderly : Act → Prop
  | .locReqRx _ st => st = some .ready
  | .peerDispatch _ st ev =>
      st ≠ .discarding ∧ (ev = .msgUpCo ∨ ev = .msgDownCo → st = .ready)
  | .msgDownCo _ req _ => req.isSome = true
  | _ => True

namespace Effect

def Orderly (e : Effect) : Prop := ∀ a ∈ e.acts, a.Orderly

variable {L : Libosmo} {io : Io} {scu : Bool} {cells : CellStore} {e f : Effect} {s : Session}

@[simp] theorem orderly_nil : nil.Orderly := by
  simp [Orderly]

@[simp] theorem orderly_msgb : msgb.Orderly := by
  simp [Orderly]

@[simp] theorem orderly_enc {pdu : BssapLePdu} : (enc pdu).Orderly := by
  simp [Orderly]

@[simp] theorem orderly_act {a : Act} : (act a).Orderly ↔ a.Orderly := by
  simp [Orderly]

@[simp] theorem orderly_append : (e ++ f).Orderly ↔ e.Orderly ∧ f.Orderly := by
  simp only [Orderly, acts_append, List.mem_append]
  constructor
  · intro h
    exact ⟨fun a ha => h a (.inl ha), fun a ha => h a (.inr ha)⟩
  · rintro ⟨he, hf⟩ a (ha | ha)
    · exact he a ha
    · exact hf a ha

@[simp] theorem orderly_request {c : ConnPtr} : (request c).Orderly := by
  simp [Orderly, Act.Orderly]

@[simp] theorem orderly_down {req : ScuReq} : (down io scu req).Orderly := by
  unfold down
  split <;> simp [Orderly, Act.Orderly]

@[simp] theorem orderly_sendCo {pdu : BssmapLePdu} : (sendCo io scu s pdu).Orderly := by
  unfold sendCo
  split <;> simp [Act.Orderly]

@[simp] theorem orderly_sendCl {addr : SccpAddr} {pdu : BssmapLePdu} :
    (sendCl io scu addr pdu).Orderly := by
  unfold sendCl
  split <;> simp

@[simp] theorem orderly_gotTa {cellId : CellId} {ta : UInt8} :
    (gotTa L io scu cells s cellId ta).Orderly := by
  unfold gotTa failed
  split
  · exact orderly_sendCo
  · split
    · exact orderly_sendCo
    · exact orderly_sendCo

@[simp] theorem orderly_answer {k : Ending} : (answer L io scu cells s k).Orderly := by
  cases k with
  | locAbort => simp [answer, Act.Orderly]
  | ta cellId ta => exact orderly_gotTa
  | failure cause => exact orderly_sendCo

@[simp] theorem orderly_ended : (ended s).Orderly := by
  simp [ended, Act.Orderly]

@[simp] theorem orderly_discardAll {p : PeerPtr} (ss : List Session) :
    (discardAll p ss).Orderly := by
  induction ss with
  | nil => exact orderly_nil
  | cons s ss ih => simp [discardAll, discarded, Act.Orderly, ih]

end Effect

namespace Service

open Effect

variable {L : Libosmo} {io : Io} {a : Service} {s : Session} {connId : ConnId} {m : Msg}
  {addr : SccpAddr} {p : PeerPtr} {x : LbPeer}

theorem finishEffect_orderly {k : Ending} : (a.finishEffect L io s k).Orderly := by
  simp [finishEffect]

theorem dataEffect_orderly : (a.dataEffect L io connId m).Orderly := by
  unfold dataEffect
  split
  · refine orderly_append.mpr ⟨by simp [Act.Orderly], ?_⟩
    cases m with
    | ignored => exact orderly_nil
    | request pdu => exact orderly_request
    | ending k => exact finishEffect_orderly
  · exact orderly_nil

theorem openSessionEffect_orderly {pdu : PerformLocReq} :
    (a.openSessionEffect L io p connId pdu).Orderly := by
  unfold openSessionEffect
  dsimp only
  split
  · simp [Act.Orderly]
  · simp [Act.Orderly]

theorem connectToEffect_orderly : (a.connectToEffect L io x connId m).Orderly := by
  unfold connectToEffect
  split
  · exact orderly_sendCl
  · simp [Act.Orderly]
  · cases m with
    | ignored => simp [openConnEffect, Act.Orderly]
    | request pdu => exact openSessionEffect_orderly
    | ending k => exact orderly_nil
  · exact orderly_nil

/-- The peer of an event, found or new, is not in DISCARDING. -/
theorem WF.peer_state (h : a.WF) (L : Libosmo) (addr : SccpAddr) :
    (a.peer L addr).1.fi.state ≠ .discarding :=
  h.peer.peerState _ peer_mem

theorem connectEffect_orderly (h : a.WF) : (a.connectEffect L io connId addr m).Orderly := by
  have hst := h.peer_state L addr
  unfold connectEffect
  split
  · simp [Act.Orderly]
  · simp [Act.Orderly, connectToEffect_orderly, hst]

theorem unitdataEffect_orderly {l2 : List UInt8} (h : a.WF) :
    (a.unitdataEffect L io addr l2).Orderly := by
  have hst := h.peer_state L addr
  unfold unitdataEffect
  dsimp only
  split
  · simp [Act.Orderly, hst]
  · simp [Act.Orderly, hst]
  · simp [Act.Orderly, hst]

theorem rxPrimEffect_orderly {prim : ScuInd} (h : a.WF) : (a.rxPrimEffect L io prim).Orderly := by
  cases prim with
  | nConnect connId addr l2 =>
    unfold rxPrimEffect
    dsimp only
    split
    · exact orderly_nil
    · simp [Act.Orderly, connectEffect_orderly h]
  | nData connId l2 => exact dataEffect_orderly
  | nDisconnect connId l2 =>
    unfold rxPrimEffect
    dsimp only
    split
    · simp [Act.Orderly, dataEffect_orderly]
    · simp [Act.Orderly]
  | nUnitdata addr l2 => exact unitdataEffect_orderly h
  | unsupported l2 => exact orderly_nil

theorem effect_orderly {i : Input} (h : a.WF) : (a.effect L i).Orderly := by
  obtain ⟨ev, io⟩ := i
  cases ev with
  | scu prim => exact orderly_append.mpr ⟨orderly_msgb, rxPrimEffect_orderly h⟩
  | locReqTimer r =>
    show (a.locReqTimeoutEffect L io r).Orderly
    unfold locReqTimeoutEffect
    split
    · exact finishEffect_orderly
    · exact orderly_nil
  | lbPeerTimer p => exact orderly_nil
  | vty cmd => exact orderly_nil

end Service

/-- Whatever a step records keeps to it. -/
theorem StepRecord.orderly {L : Libosmo} {a a' : Service} {i : Input} {w' : World}
    (hr : StepRecord L a i w' a') (h : a.WF) : ∀ act ∈ newActs a.world w', act.Orderly := by
  intro act hact
  by_cases hp : act.plain = true
  · exact Service.effect_orderly h act ((hr.mem_iff hp).mp hact)
  · cases act with
    | bssapLeEnc pdu msg => trivial
    | msgbFree msg => trivial
    | sapDown req msg rc => trivial
    | _ => exact absurd rfl hp

/-- So does the whole record of a run. -/
theorem ReachableWorld.orderly {L : Libosmo} {w : World} (h : ReachableWorld L w) :
    ∀ act ∈ w.net.log, act.Orderly := by
  obtain ⟨scu, hr⟩ := h
  have hinv : (∃ a : Service, a.WF ∧ w = a.world) ∧ ∀ act ∈ w.net.log, act.Orderly := by
    have hinit : ∀ act ∈ (World.init scu).net.log, act.Orderly := by simp [World.init]
    refine hr.invariant (I := fun w => (∃ a : Service, a.WF ∧ w = a.world) ∧
      ∀ act ∈ w.net.log, act.Orderly) ?_ ⟨⟨Service.init scu, Service.init_wf scu, rfl⟩, hinit⟩
    rintro u i v ⟨⟨a, hwf, rfl⟩, hlog⟩ hs
    obtain ⟨a', hrec⟩ := step_record L hwf hs
    refine ⟨⟨a', hrec.wf, hrec.world⟩, ?_⟩
    intro act hact
    rw [hrec.log] at hact
    rcases List.mem_append.mp hact with hact | hact
    · exact hlog act hact
    · exact hrec.orderly hwf act hact
  exact hinv.2

end OsmoSmlc
