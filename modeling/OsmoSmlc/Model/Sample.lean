import OsmoSmlc.Core.Decimal
import OsmoSmlc.Model.SccpLbInst

/-! Library functions to run the process with: identifiers are compared and matched, names
and numbers are printed and read, and a few messages are known. -/
namespace OsmoSmlc.Sample
open Osmo

def addrA : SccpAddr := [0, 23]
def addrB : SccpAddr := [0, 42]

def imsiA : MobileIdentity := ⟨.imsi, [9, 0, 1, 7, 0, 0, 0, 0, 0, 0, 0, 0, 0, 2, 3]⟩
def imsiB : MobileIdentity := ⟨.imsi, [9, 0, 1, 7, 0, 0, 0, 0, 0, 0, 0, 0, 0, 4, 2]⟩

def cell : CellId := .lacAndCi 23 42

/-- Requests without and with the timing advance. -/
def request (imsi : MobileIdentity) : PerformLocReq := ⟨cell, imsi, none⟩
def requestTa (imsi : MobileIdentity) (ta : UInt8) : PerformLocReq :=
  ⟨cell, imsi, some (.taLayer3 ta)⟩

def msgReset : List UInt8 := [0, 4, 48, 4, 1, 32]
def msgResetAck : List UInt8 := [0, 1, 49]
def msgRequestA : List UInt8 := [0, 10, 43, 23]
def msgRequestB : List UInt8 := [0, 10, 43, 42]
def msgRequestTaA : List UInt8 := [0, 16, 43, 23]
def msgAbort : List UInt8 := [0, 4, 46, 71, 1, 1]
def msgTaResponse : List UInt8 := [0, 8, 42, 73, 5, 1, 42, 0, 42, 1]
def msgRequestTa43A : List UInt8 := [0, 16, 43, 23, 43]
def msgTaResponse43 : List UInt8 := [0, 8, 42, 73, 5, 1, 43, 0, 43, 1]

/-- The connection-oriented messages that are known, with what they say. -/
def messages : List (List UInt8 × BssapLePdu) :=
  [(msgRequestA, .bssmapLe (.performLocReq (request imsiA))),
   (msgRequestB, .bssmapLe (.performLocReq (request imsiB))),
   (msgRequestTaA, .bssmapLe (.performLocReq (requestTa imsiA 1))),
   (msgAbort, .bssmapLe .performLocAbort),
   (msgTaResponse, .bssmapLe (.connOrientedInfo (.taResponse 42 1))),
   (msgRequestTa43A, .bssmapLe (.performLocReq ⟨.lacAndCi 23 43, imsiA, some (.taLayer3 1)⟩)),
   (msgTaResponse43, .bssmapLe (.connOrientedInfo (.taResponse 43 1)))]

def msgt (l2 : List UInt8) : BssmapLeMsgt :=
  match l2[2]? with
  | some t => if t = 48 then .reset else if t = 49 then .resetAck else .other t.toNat
  | none => .other (-1)

def cellIdToCgi (dst : CellGlobalId) : CellId → CellGlobalId
  | .wholeGlobal cgi => cgi
  | .lacAndCi lac ci => ⟨⟨dst.lai.plmn, lac⟩, ci⟩
  | .ci ci => { dst with cellIdentity := ci }
  | .laiAndLac lai => { dst with lai := lai }
  | .lac lac => ⟨⟨dst.lai.plmn, lac⟩, dst.cellIdentity⟩
  | _ => dst

def cellIdFromCgi (kind : CellIdent) (cgi : CellGlobalId) : CellId :=
  match kind with
  | .wholeGlobal => .wholeGlobal cgi
  | .lacAndCi => .lacAndCi cgi.lai.lac cgi.cellIdentity
  | .ci => .ci cgi.cellIdentity
  | .laiAndLac => .laiAndLac cgi.lai
  | .lac => .lac cgi.lai.lac
  | .bss => .bss
  | _ => .noCell

/-- Country and network codes that are known, with their names. -/
def mccs : List (UInt16 × String) := [(262, "262"), (901, "901")]
def mncs : List (UInt16 × Bool × String) := [(42, false, "42"), (42, true, "042"), (70, false, "70")]

/-- The three bytes of a number. -/
def bytes24 (n : Nat) : List UInt8 :=
  [UInt8.ofNat (n / 65536), UInt8.ofNat (n / 256), UInt8.ofNat n]

/-- A latitude as its sign and 23 bits of its amount, rounded up. -/
def gadEncLat (lat : Int32) : Nat :=
  (if lat.toInt < 0 then 8388608 else 0)
    + min 8388607 ((lat.toInt.natAbs * 8388608 + 8388607) / 90000000)

/-- A longitude as 24 bits, rounded away from zero. -/
def gadEncLon (lon : Int32) : Nat :=
  let n := (lon.toInt.natAbs * 16777216 + 16777215) / 360000000
  if lon.toInt < 0 then (16777216 - n) % 16777216 else n % 16777216

/-- The radius in millimetres that an uncertainty code stands for: 10 m times 1.1 to the code,
less 10 m. -/
def gadDecUnc (unc : UInt8) : UInt32 :=
  UInt32.ofNat (10000 * 11 ^ unc.toNat / 10 ^ unc.toNat - 10000)

/-- The largest of the 128 codes that stands for no more than the radius. -/
def gadEncUnc (mm : UInt32) : UInt8 :=
  UInt8.ofNat ((List.range 127).countP fun unc => gadDecUnc (UInt8.ofNat (unc + 1)) ≤ mm)

/-- An ellipsoid point with an uncertainty circle. -/
def gadEnc (location : EllPointUncCircle) : Int × GadRaw :=
  (8, 16 :: bytes24 (gadEncLat location.lat) ++ bytes24 (gadEncLon location.lon)
    ++ [gadEncUnc location.unc])

def libosmo : Libosmo where
  sccpAddrRiCmp a b := if a = b then 0 else 1
  mobileIdentityCmp a b := if a = b then 0 else 1
  bssapLeDec l2 := (messages.find? fun m => m.1 = l2).map Prod.snd
  bssmapLeMsgt := msgt
  cellIdsMatch a b exact := if exact then a = b else a.agrees b
  cellIdToCgi := cellIdToCgi
  cellIdFromCgi := cellIdFromCgi
  gadEncUnc := gadEncUnc
  gadDecUnc := gadDecUnc
  gadEnc := gadEnc
  mccFromStr str := (mccs.find? fun m => m.2 = str).map Prod.fst
  mncFromStr str := (mncs.find? fun m => m.2.2 = str).map fun m => (m.1, m.2.1)
  mccName mcc := ((mccs.find? fun m => m.1 = mcc).map Prod.snd).getD ""
  mncName mnc mnc3Digits :=
    ((mncs.find? fun m => m.1 = mnc && m.2.1 = mnc3Digits).map fun m => m.2.2).getD ""
  floatStrToInt str precision := (Decimal.readFixed precision str.toList).map Int64.ofInt
  intToFloatStr val precision := String.ofList (Decimal.print precision val.toInt)

theorem libosmo_riCmp : libosmo.RiCmpEquivalence where
  refl a := by simp [libosmo]
  symm a b := by
    simp only [libosmo]
    by_cases h : a = b
    · simp [h]
    · simp [h]
  trans a b c := by
    simp only [libosmo]
    by_cases h : a = b
    · simp [h]
    · simp [h]

theorem libosmo_imsiCmp : libosmo.ImsiCmpEq := by
  intro a b _ _
  simp [libosmo]

theorem libosmo_cellIdsMatch : libosmo.CellIdsMatch where
  exact a b _ _ := by simp [libosmo]
  loose a b _ _ := by simp [libosmo]

theorem libosmo_convertsKinds : libosmo.ConvertsKinds where
  toCgi dst k hk := by
    cases k with
    | wholeGlobal cgi => rfl
    | lacAndCi l ci => rfl
    | ci ci => rfl
    | _ => cases hk
  wholeGlobal cgi := rfl
  lacAndCi cgi := rfl
  ci cgi := rfl
  toLai dst lai := rfl
  toLac dst l := rfl
  laiAndLac cgi := rfl
  lac cgi := rfl
  noCell cgi := rfl
  bss cgi := rfl

/-! What the layers below answer: they encode and accept everything, or only some of it. -/

def io : Io := ⟨fun _ => true, fun _ => 0⟩
def ioRefusing : Io := ⟨fun _ => true, fun _ => -5⟩

/-! Events from the peers of the sample. -/

def resetFrom (addr : SccpAddr) : Input := ⟨.scu (.nUnitdata addr msgReset), io⟩
def resetAckFrom (addr : SccpAddr) : Input := ⟨.scu (.nUnitdata addr msgResetAck), io⟩
def connect (connId : ConnId) (addr : SccpAddr) (l2 : List UInt8) : Input :=
  ⟨.scu (.nConnect connId addr l2), io⟩
def data (connId : ConnId) (l2 : List UInt8) : Input := ⟨.scu (.nData connId l2), io⟩
def disconnect (connId : ConnId) (l2 : List UInt8) : Input := ⟨.scu (.nDisconnect connId l2), io⟩
/-- The state after a run that the process survives. -/
def after (is : List Input) : World :=
  match run (step libosmo) (World.init true) is with
  | .ok w => w
  | .error _ => World.init true

def survives (is : List Input) : Bool :=
  match run (step libosmo) (World.init true) is with
  | .ok _ => true
  | .error _ => false

theorem run_after {is : List Input} (h : survives is = true) :
    run (step libosmo) (World.init true) is = .ok (after is) := by
  unfold survives at h
  unfold after
  split at h
  · rename_i w hw
    rw [hw]
  · cases h

theorem step_after {is : List Input} {i : Input} (h : survives (is ++ [i]) = true) :
    step libosmo (after is) i = .ok (after (is ++ [i])) := by
  obtain ⟨w, hw, hi⟩ := run_concat.mp (run_after h)
  have hafter : after is = w := by
    unfold after
    rw [hw]
  rw [hafter]
  exact hi

theorem reachable {is : List Input} (h : survives is = true) : ReachableWorld libosmo (after is) :=
  ⟨true, is, run_after h⟩

/-- Every step of a run meets a condition if it does so after the inputs before it. -/
theorem meets_after {C : World → Input → Prop} {is : List Input}
    (h : ∀ k : Fin is.length, C (after (is.take k)) (is.get k)) :
    Meets (step libosmo) C (World.init true) is := by
  induction is using List.reverseRecOn with
  | nil => trivial
  | append_singleton is i ih =>
    refine meets_concat.mpr ⟨ih fun k => ?_, fun t ht => ?_⟩
    · have hlt : (k : Nat) < (is ++ [i]).length := by
        rw [List.length_append]
        exact Nat.lt_add_right _ k.isLt
      have hk := h ⟨k, hlt⟩
      have htake : (is ++ [i]).take k = is.take k :=
        List.take_append_of_le_length (Nat.le_of_lt k.isLt)
      have hget : (is ++ [i]).get ⟨k, hlt⟩ = is.get k := List.getElem_append_left k.isLt
      rwa [htake, hget] at hk
    · have hlast := h ⟨is.length, by simp⟩
      have ht' : after is = t := by
        unfold after
        rw [ht]
      simpa [ht'] using hlast

def locReqTimer (r : ReqPtr) : Input := ⟨.locReqTimer r, io⟩

/-- A peer does the RESET procedure and then asks twice for the location of a subscriber. -/
def twoConns : List Input :=
  [resetFrom addrA, connect 1 addrA msgRequestA, connect 2 addrA msgRequestA]

end OsmoSmlc.Sample
