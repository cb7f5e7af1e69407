import Mathlib.Logic.Basic

/-! The messages and identifiers of the Lb interface, and the functions of
libosmocore and libosmo-sigtran that the SMLC calls. What those functions compute
is a parameter of the model: a theorem names what it relies on. -/
namespace OsmoSmlc

/-- `struct osmo_sccp_addr`, which the SMLC only copies and compares. -/
abbrev SccpAddr := List UInt8

/-- The SCCP connection id. -/
abbrev ConnId := UInt32

inductive MobileIdentityType where
  | none | imsi | imei | imeisv | tmsi
  deriving DecidableEq, Inhabited

/-- `struct osmo_mobile_identity`. -/
structure MobileIdentity where
  type : MobileIdentityType
  digits : List UInt8
  deriving DecidableEq, Inhabited

/-- `struct osmo_plmn_id`. -/
structure PlmnId where
  mcc : UInt16
  mnc : UInt16
  mnc3Digits : Bool
  deriving DecidableEq, Inhabited

/-- `struct osmo_location_area_id`. -/
structure LocationAreaId where
  plmn : PlmnId
  lac : UInt16
  deriving DecidableEq, Inhabited

/-- `struct osmo_cell_global_id`. -/
structure CellGlobalId where
  lai : LocationAreaId
  cellIdentity : UInt16
  deriving DecidableEq, Inhabited

/-- `enum CELL_IDENT`. -/
inductive CellIdent where
  | wholeGlobal | lacAndCi | ci | noCell | laiAndLac | lac | bss
  | other (discr : UInt8)
  deriving DecidableEq

def CellIdent.value : CellIdent → Nat
  | .wholeGlobal => 0
  | .lacAndCi => 1
  | .ci => 2
  | .noCell => 3
  | .laiAndLac => 4
  | .lac => 5
  | .bss => 6
  | .other discr => discr.toNat

/-- `struct gsm0808_cell_id`; the kinds that the SMLC never looks into are kept raw. -/
inductive CellId where
  | wholeGlobal (id : CellGlobalId)
  | lacAndCi (lac ci : UInt16)
  | ci (ci : UInt16)
  | noCell
  | laiAndLac (lai : LocationAreaId)
  | lac (lac : UInt16)
  | bss
  | other (discr : UInt8) (raw : List UInt8)
  deriving DecidableEq, Inhabited

def CellId.discr : CellId → CellIdent
  | .wholeGlobal _ => .wholeGlobal
  | .lacAndCi _ _ => .lacAndCi
  | .ci _ => .ci
  | .noCell => .noCell
  | .laiAndLac _ => .laiAndLac
  | .lac _ => .lac
  | .bss => .bss
  | .other d _ => .other d

/-- `struct bsslap_pdu`, with the values that the SMLC reads. -/
inductive BsslapPdu where
  | taRequest
  | taResponse (cellId : UInt16) (ta : UInt8)
  | reject
  | reset (cellId : UInt16) (ta : UInt8)
  | abort
  | taLayer3 (ta : UInt8)
  | other (msgType : UInt8)
  deriving DecidableEq

/-- `struct bssmap_le_perform_loc_req`; `apdu` is absent where `apdu_present` is false. -/
structure PerformLocReq where
  cellId : CellId
  imsi : MobileIdentity
  apdu : Option BsslapPdu
  deriving DecidableEq, Inhabited

/-- The values of `enum lcs_cause` that the SMLC sends. -/
inductive LcsCause where
  | requestAborted | systemFailure | facilityNotsupp
  deriving DecidableEq

/-- `struct osmo_gad` of type `GAD_TYPE_ELL_POINT_UNC_CIRCLE`, the only one composed here. -/
structure EllPointUncCircle where
  lat : Int32
  lon : Int32
  unc : UInt32
  deriving DecidableEq

/-- `union gad_raw`, an encoded location estimate. -/
abbrev GadRaw := List UInt8

/-- `struct bssmap_le_perform_loc_resp`; both elements are optional. -/
structure PerformLocResp where
  locationEstimate : Option GadRaw
  lcsCause : Option LcsCause
  deriving DecidableEq

/-- `struct bssmap_le_pdu`. -/
inductive BssmapLePdu where
  | reset
  | resetAck
  | performLocReq (pdu : PerformLocReq)
  | performLocResp (pdu : PerformLocResp)
  | performLocAbort
  | connOrientedInfo (apdu : BsslapPdu)
  | other (msgType : UInt8)
  deriving DecidableEq

/-- `struct bssap_le_pdu`: a BSSMAP-LE message, or one with another discriminator. -/
inductive BssapLePdu where
  | bssmapLe (pdu : BssmapLePdu)
  | other (discr : UInt8)
  deriving DecidableEq

/-- The message types that the connectionless handler tells apart. -/
inductive BssmapLeMsgt where
  | reset | resetAck
  | other (msgt : Int)
  deriving DecidableEq

/-- What the SMLC hands down to the SCCP user SAP. -/
inductive ScuReq where
  | nConnect (called : SccpAddr) (connId : ConnId) (pdu : BssapLePdu)
  | nData (connId : ConnId) (pdu : BssapLePdu)
  | nUnitdata (called : SccpAddr) (pdu : BssapLePdu)
  deriving DecidableEq

/-- The library functions without side effects. Decoders yield `none` on an error. -/
structure Libosmo where
  sccpAddrRiCmp : SccpAddr → SccpAddr → Int
  mobileIdentityCmp : MobileIdentity → MobileIdentity → Int
  bssapLeDec : List UInt8 → Option BssapLePdu
  bssmapLeMsgt : List UInt8 → BssmapLeMsgt
  cellIdsMatch : CellId → CellId → Bool → Bool
  cellIdToCgi : CellGlobalId → CellId → CellGlobalId
  cellIdFromCgi : CellIdent → CellGlobalId → CellId
  gadEncUnc : UInt32 → UInt8
  gadDecUnc : UInt8 → UInt32
  gadEnc : EllPointUncCircle → Int × GadRaw
  mccFromStr : String → Option UInt16
  mncFromStr : String → Option (UInt16 × Bool)
  mccName : UInt16 → String
  mncName : UInt16 → Bool → String
  floatStrToInt : String → Nat → Option Int64
  intToFloatStr : Int64 → Nat → String

/-- What the world answers while one event is handled: whether a message can be
encoded, and what the SCCP layer returns for a request. -/
structure Io where
  bssapLeEnc : BssapLePdu → Bool
  sapDown : ScuReq → Int

/-- The kinds of identifier that a cell can be configured under. -/
def CellId.Configurable : CellId → Prop
  | .wholeGlobal _ | .lacAndCi _ _ => True
  | _ => False

/-! The components of an identifier that are present. -/

def CellId.plmn? : CellId → Option PlmnId
  | .wholeGlobal cgi => some cgi.lai.plmn
  | .laiAndLac lai => some lai.plmn
  | _ => none

def CellId.lac? : CellId → Option UInt16
  | .wholeGlobal cgi => some cgi.lai.lac
  | .laiAndLac lai => some lai.lac
  | .lacAndCi l _ | .lac l => some l
  | _ => none

def CellId.ci? : CellId → Option UInt16
  | .wholeGlobal cgi => some cgi.cellIdentity
  | .lacAndCi _ c | .ci c => some c
  | _ => none

/-- Two optional values do not differ. -/
def agree {α : Type} [DecidableEq α] : Option α → Option α → Bool
  | some x, some y => x = y
  | _, _ => true

/-- All components that are present in both identifiers agree. -/
def CellId.agrees (a b : CellId) : Bool :=
  agree a.plmn? b.plmn? && agree a.lac? b.lac? && agree a.ci? b.ci?

/-- `gsm0808_cell_ids_match()` for identifiers under which a cell can be configured. -/
structure Libosmo.CellIdsMatch (L : Libosmo) : Prop where
  exact : ∀ a b : CellId, a.Configurable → b.Configurable →
    (L.cellIdsMatch a b true = true ↔ a = b)
  loose : ∀ a b : CellId, a.Configurable → b.Configurable →
    (L.cellIdsMatch a b false = true ↔ a.agrees b = true)

/-- For identifiers with a CI, `gsm0808_cell_id_to_cgi()` writes the components that are there,
and `gsm0808_cell_id_from_cgi()` builds the kind from its components. -/
structure Libosmo.ConvertsCi (L : Libosmo) : Prop where
  toCgi : ∀ dst k, k.ci?.isSome = true → L.cellIdToCgi dst k =
    ⟨⟨k.plmn?.getD dst.lai.plmn, k.lac?.getD dst.lai.lac⟩, k.ci?.getD dst.cellIdentity⟩
  wholeGlobal : ∀ cgi, L.cellIdFromCgi .wholeGlobal cgi = .wholeGlobal cgi
  lacAndCi : ∀ cgi, L.cellIdFromCgi .lacAndCi cgi = .lacAndCi cgi.lai.lac cgi.cellIdentity
  ci : ∀ cgi, L.cellIdFromCgi .ci cgi = .ci cgi.cellIdentity

/-- The same for the kinds without a CI, which keep what they have. -/
structure Libosmo.ConvertsKinds (L : Libosmo) : Prop extends L.ConvertsCi where
  toLai : ∀ dst lai, L.cellIdToCgi dst (.laiAndLac lai) = ⟨lai, dst.cellIdentity⟩
  toLac : ∀ dst l, L.cellIdToCgi dst (.lac l) = ⟨⟨dst.lai.plmn, l⟩, dst.cellIdentity⟩
  laiAndLac : ∀ cgi, L.cellIdFromCgi .laiAndLac cgi = .laiAndLac cgi.lai
  lac : ∀ cgi, L.cellIdFromCgi .lac cgi = .lac cgi.lai.lac
  noCell : ∀ cgi, L.cellIdFromCgi .noCell cgi = .noCell
  bss : ∀ cgi, L.cellIdFromCgi .bss cgi = .bss

/-- `osmo_sccp_addr_ri_cmp() == 0` as an equivalence of addresses. -/
structure Libosmo.RiCmpEquivalence (L : Libosmo) : Prop where
  refl : ∀ a, L.sccpAddrRiCmp a a = 0
  symm : ∀ a b, L.sccpAddrRiCmp a b = 0 → L.sccpAddrRiCmp b a = 0
  trans : ∀ a b c, L.sccpAddrRiCmp a b = 0 → L.sccpAddrRiCmp b c = 0 → L.sccpAddrRiCmp a c = 0

/-- `osmo_mobile_identity_cmp() == 0` as equality of IMSIs. -/
def Libosmo.ImsiCmpEq (L : Libosmo) : Prop :=
  ∀ a b : MobileIdentity, a.type = .imsi → b.type = .imsi →
    (L.mobileIdentityCmp a b = 0 ↔ a = b)

end OsmoSmlc
