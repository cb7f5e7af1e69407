import OsmoSmlc.Core.Prog

/-! Finite state machine instances as libosmocore runs them: events outside the
event mask of the state and transitions outside its transition mask are refused
without effect, and an instance that is being terminated does nothing any more. -/
namespace Osmo

def eperm : Int := 1
def enoent : Int := 2
def eio : Int := 5
def eagain : Int := 11
def einval : Int := 22
def erange : Int := 34
def enotsup : Int := 95

/-- `struct osmo_fsm_inst`: `timer` says whether a state timeout is scheduled. -/
structure FsmInst (σ : Type) where
  state : σ
  terminating : Bool
  timer : Bool
  deriving DecidableEq, Repr

/-- `struct osmo_fsm`: the masks of each state, the events handled alike in all
states, and the states that are entered with a timeout. -/
structure Fsm (σ ε : Type) where
  inEvent : σ → ε → Bool
  outState : σ → σ → Bool
  allstateEvent : ε → Bool
  timeout : σ → Bool

/-- Where an instance lives in the program state; `get` fails on a dangling pointer. -/
structure FsmRef (S σ : Type) where
  get : S → Option (FsmInst σ)
  set : FsmInst σ → S → S

namespace Fsm

variable {E S σ ε : Type} (F : Fsm σ ε) (bad : E) (fi : FsmRef S σ)

/-- `osmo_fsm_inst_dispatch`. -/
def dispatch (ev : ε) (allstateAction : Prog E S Unit) (action : σ → Prog E S Unit) :
    Prog E S Int := do
  let inst ← Prog.deref bad fi.get
  if inst.terminating then return 0
  else if F.allstateEvent ev then
    allstateAction
    return 0
  else if F.inEvent inst.state ev then
    action inst.state
    return 0
  else return -1

/-- `osmo_fsm_inst_state_chg`; the onenter function runs last, in the new state. -/
def stateChg (new : σ) (onenter : Prog E S Unit) : Prog E S Int := do
  let inst ← Prog.deref bad fi.get
  if inst.terminating then return -einval
  else if F.outState inst.state new then
    Prog.modify (fi.set { inst with state := new, timer := F.timeout new })
    onenter
    return 0
  else return -eperm

/-- `osmo_fsm_inst_term`: the cleanup function runs with the instance already marked. -/
def term (cleanup : Prog E S Unit) : Prog E S Unit := do
  let inst ← Prog.deref bad fi.get
  if inst.terminating then return
  else
    Prog.modify (fi.set { inst with terminating := true, timer := false })
    cleanup

/-- `fsm_tmr_cb`: the timeout of the current state expires. -/
def tmrCb (timerCb : Prog E S Int) (term : Prog E S Unit) : Prog E S Unit := do
  let inst ← Prog.deref bad fi.get
  Prog.modify (fi.set { inst with timer := false })
  let rc ← timerCb
  if rc = 1 then term else return

variable {F bad fi} {s s' : S} {inst : FsmInst σ}

theorem dispatch_refused {ev : ε} {a : Prog E S Unit} {b : σ → Prog E S Unit}
    (hg : fi.get s = some inst) (ht : inst.terminating = false)
    (ha : F.allstateEvent ev = false) (hm : F.inEvent inst.state ev = false) :
    F.dispatch bad fi ev a b s = .ok (-1,s) := by
  rw [dispatch, Prog.bind_ok (Prog.deref_some hg)]
  simp [ht, ha, hm]

theorem dispatch_action {ev : ε} {a : Prog E S Unit} {b : σ → Prog E S Unit}
    (hg : fi.get s = some inst) (ht : inst.terminating = false)
    (ha : F.allstateEvent ev = false) (hm : F.inEvent inst.state ev = true) :
    F.dispatch bad fi ev a b s = (b inst.state >>= fun _ => pure 0) s := by
  rw [dispatch, Prog.bind_ok (Prog.deref_some hg)]
  simp [ht, ha, hm]

theorem dispatch_allstate {ev : ε} {a : Prog E S Unit} {b : σ → Prog E S Unit}
    (hg : fi.get s = some inst) (ht : inst.terminating = false)
    (ha : F.allstateEvent ev = true) :
    F.dispatch bad fi ev a b s = (a >>= fun _ => pure 0) s := by
  rw [dispatch, Prog.bind_ok (Prog.deref_some hg)]
  simp [ht, ha]

/-- An event that is not dispatched leaves everything as it was. -/
theorem dispatch_rejected {ev : ε} {a : Prog E S Unit} {b : σ → Prog E S Unit} {rc : Int}
    (h : F.dispatch bad fi ev a b s = .ok (rc,s')) (hrc : rc ≠ 0) : s' = s := by
  obtain ⟨inst, t, hd, hrun⟩ := Prog.bind_eq_ok.mp h
  obtain ⟨-, ht⟩ := Prog.deref_eq_ok hd
  split at hrun
  · cases hrun
    exact absurd rfl hrc
  · split at hrun
    · exact absurd (Prog.Yields.bind (fun _ => Prog.yields_pure 0) _ _ _ hrun) hrc
    · split at hrun
      · exact absurd (Prog.Yields.bind (fun _ => Prog.yields_pure 0) _ _ _ hrun) hrc
      · cases hrun
        exact ht

theorem stateChg_permitted {new : σ} {onenter : Prog E S Unit}
    (hg : fi.get s = some inst) (ht : inst.terminating = false)
    (hm : F.outState inst.state new = true) :
    F.stateChg bad fi new onenter s =
      (onenter >>= fun _ => pure 0)
        (fi.set { inst with state := new, timer := F.timeout new } s) := by
  rw [stateChg, Prog.bind_ok (Prog.deref_some hg)]
  simp only [ht, Bool.false_eq_true, ↓reduceIte, hm]
  rw [Prog.bind_ok (Prog.modify_apply _ _)]

theorem term_live {cleanup : Prog E S Unit} (hg : fi.get s = some inst)
    (ht : inst.terminating = false) :
    term bad fi cleanup s = cleanup (fi.set { inst with terminating := true, timer := false } s) := by
  rw [term, Prog.bind_ok (Prog.deref_some hg)]
  simp only [ht, Bool.false_eq_true, ↓reduceIte]
  rw [Prog.bind_ok (Prog.modify_apply _ _)]

/-- Terminating an instance that is already being terminated is ignored. -/
theorem term_terminating {cleanup : Prog E S Unit} (hg : fi.get s = some inst)
    (ht : inst.terminating = true) : term bad fi cleanup s = .ok ((),s) := by
  rw [term, Prog.bind_ok (Prog.deref_some hg)]
  simp [ht]

theorem frame_term {f : S → S} {cleanup : Prog E S Unit} (hg : ∀ s, fi.get (f s) = fi.get s)
    (hs : ∀ i s, fi.set i (f s) = f (fi.set i s)) (hc : Prog.Frame f cleanup) :
    Prog.Frame f (term bad fi cleanup) := by
  apply (Prog.frame_deref hg).bind
  intro i
  split
  · exact Prog.frame_pure ()
  · exact (Prog.frame_modify (hs _)).bind fun _ => hc

end Fsm
end Osmo
