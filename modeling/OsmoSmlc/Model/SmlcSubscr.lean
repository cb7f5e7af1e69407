import OsmoSmlc.Model.World

/-! The subscriber store of `smlc_subscr.c`: a subscriber is listed from its first
use until the callback of its use count sees the last token returned. -/
namespace OsmoSmlc
open Osmo

variable {τ : Type} [DecidableEq τ] (L : Libosmo)

def Subscribers.subscr? (t : Subscribers τ) (s : SubscrPtr) : Option (SmlcSubscr τ) :=
  KeyedList.lookup SmlcSubscr.ptr t.list s

def Subscribers.upd (t : Subscribers τ) (s : SubscrPtr) (f : SmlcSubscr τ → SmlcSubscr τ) :
    Subscribers τ :=
  { t with list := KeyedList.update SmlcSubscr.ptr t.list s f }

def derefSubscr (s : SubscrPtr) : Prog Crash (Subscribers τ) (SmlcSubscr τ) :=
  Prog.deref .useAfterFree fun t => t.subscr? s

def smlcSubscrFree (s : SubscrPtr) : Prog Crash (Subscribers τ) Unit :=
  Prog.modify fun t => { t with list := KeyedList.remove SmlcSubscr.ptr t.list s }

def smlcSubscrUseCb (s : SubscrPtr) (use : τ) : Prog Crash (Subscribers τ) Int := do
  let smlcSubscr ← derefSubscr s
  let total := smlcSubscr.useCount.total
  if smlcSubscr.useCount.count use < 0 then return -erange
  else if total = 0 then
    smlcSubscrFree s
    return 0
  else return 0

/-- `osmo_use_count_get_put` on the use count of a subscriber, without its refusal of a count
that leaves `int32_t`. -/
def smlcSubscrGetPut (s : SubscrPtr) (use : τ) (change : Int) : Prog Crash (Subscribers τ) Int := do
  Prog.modify fun t => t.upd s fun x => { x with useCount := x.useCount.change use change }
  smlcSubscrUseCb s use

def smlcSubscrGet (s : SubscrPtr) (use : τ) : Prog Crash (Subscribers τ) Unit := do
  let rc ← smlcSubscrGetPut s use 1
  Prog.assert (.osmoAssert .smlcSubscrGet) (rc == 0)

def smlcSubscrPut (s : SubscrPtr) (use : τ) : Prog Crash (Subscribers τ) Unit := do
  let rc ← smlcSubscrGetPut s use (-1)
  Prog.assert (.osmoAssert .smlcSubscrPut) (rc == 0)

/-- `smlc_subscr_alloc`, with the assignment of the IMSI that follows each call of it. -/
def smlcSubscrAlloc (imsi : MobileIdentity) : Prog Crash (Subscribers τ) SubscrPtr :=
  Prog.act fun t => (t.next, { list := t.list ++ [⟨t.next, imsi, []⟩], next := t.next + 1 })

/-- The list walk of `smlc_subscr_find`. -/
def Subscribers.byImsi (t : Subscribers τ) (imsi : MobileIdentity) : Option (SmlcSubscr τ) :=
  t.list.find? fun x => L.mobileIdentityCmp x.imsi imsi = 0

def smlcSubscrFind (imsi : MobileIdentity) (use : τ) :
    Prog Crash (Subscribers τ) (Option SubscrPtr) := do
  match ← Prog.read (fun t => t.byImsi L imsi) with
  | some smlcSubscr =>
      smlcSubscrGet smlcSubscr.ptr use
      return some smlcSubscr.ptr
  | none => return none

def smlcSubscrFindOrCreate (imsi : MobileIdentity) (use : τ) :
    Prog Crash (Subscribers τ) SubscrPtr := do
  match ← smlcSubscrFind L imsi use with
  | some smlcSubscr => return smlcSubscr
  | none =>
      let smlcSubscr ← smlcSubscrAlloc imsi
      smlcSubscrGet smlcSubscr use
      return smlcSubscr

end OsmoSmlc
