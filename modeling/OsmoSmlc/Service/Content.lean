import OsmoSmlc.Cells.Store
import OsmoSmlc.Service.Connect

/-! What the responses of an event say, and what it asks for: the position of the cell that a
request names, or the cause why there is none, and a TA where the request does not carry it. -/
namespace OsmoSmlc
open Osmo

/-- The configured cell that an identifier stands for: the one that matches exactly, or else
the first that matches in part. -/
def CellStore.named (L : Libosmo) (cells : CellStore) (k : CellId) : Option CellLocation :=
  FirstMatch.first (fun c => L.cellIdsMatch c.cellId k true)
    (fun c => L.cellIdsMatch c.cellId k false) cells

/-- The radius of the circle in millimetres, for steps of 550 m. -/
def radius (ta : UInt8) : UInt32 := UInt32.ofNat (ta.toNat * 550 * 1000)

/-- The answer to a request once the TA is known. -/
def positionResp (L : Libosmo) (cells : CellStore) (k : CellId) (ta : UInt8) : PerformLocResp :=
  match cells.named L k with
  | some c =>
      ⟨some (L.gadEnc ⟨c.lat, c.lon, L.gadDecUnc (L.gadEncUnc (radius ta))⟩).2, none⟩
  | none => ⟨none, some .facilityNotsupp⟩

/-- `osmo_gad_enc()` encodes the positions on the globe. -/
def Libosmo.GadEncodes (L : Libosmo) : Prop :=
  ∀ p : EllPointUncCircle, Coord 90000000 p.lat → Coord 180000000 p.lon → 0 < (L.gadEnc p).1

/-- `osmo_bssap_le_enc()` encodes the Perform Location Responses. -/
def Io.EncodesResponses (io : Io) : Prop :=
  ∀ resp, io.bssapLeEnc (.bssmapLe (.performLocResp resp)) = true

/-- All cells are somewhere on the globe. -/
def CellStore.OnGlobe (cells : CellStore) : Prop :=
  ∀ c ∈ cells, Coord 90000000 c.lat ∧ Coord 180000000 c.lon

def Msg.ending? : Msg → Option Ending
  | .ending k => some k
  | _ => none

/-- Only the CI is replaced. -/
def CellId.withCi (n : UInt16) : CellId → CellId
  | .wholeGlobal cgi => .wholeGlobal { cgi with cellIdentity := n }
  | .lacAndCi l _ => .lacAndCi l n
  | .ci _ => .ci n
  | k => k

/-- The latest cell id once the CI `n` is named. What the library makes of the kinds that the
SMLC never looks into is left open. -/
def CellId.latest (L : Libosmo) (n : UInt16) : CellId → CellId
  | .other d raw =>
      L.cellIdFromCgi (.other d) (L.cellIdToCgi (L.cellIdToCgi default (.other d raw)) (.ci n))
  | k => k.withCi n

/-- The response that a pending request ends with. -/
def Ending.response (L : Libosmo) (cells : CellStore) (k : CellId) : Ending → Option PerformLocResp
  | .locAbort => none
  | .ta cellId advance => some (positionResp L cells (k.latest L cellId) advance)
  | .failure cause => some ⟨none, some cause⟩

/-- How an event ends the request `r` that is pending on a connection, where it does. -/
def Event.endingFor (L : Libosmo) (connId : ConnId) (r : ReqPtr) : Event → Option Ending
  | .scu (.nData c l2) => if c = connId then (L.msg l2).ending? else none
  | .scu (.nDisconnect c l2) => if c = connId ∧ l2.length ≠ 0 then (L.msg l2).ending? else none
  | .locReqTimer r' => if r' = r then some (.failure .systemFailure) else none
  | _ => none

/-- What a request for `r` that is accepted with its TA is answered at once. -/
def Act.atOnce (L : Libosmo) (cells : CellStore) (r : ReqPtr) : Act → Option PerformLocResp
  | .locReqAccepted r' _ pdu =>
      if r' = r then
        match pdu.apdu with
        | some (.taLayer3 ta) => some (positionResp L cells pdu.cellId ta)
        | _ => none
      else none
  | _ => none

def taRequest : BssapLePdu := .bssmapLe (.connOrientedInfo .taRequest)

/-- A request is accepted that does not carry the TA. -/
def Act.wantsTa : Act → Bool
  | .locReqAccepted _ _ pdu =>
      match pdu.apdu with
      | some (.taLayer3 _) => false
      | _ => true
  | _ => false

section Ci

variable {L : Libosmo} {k : CellId} {n : UInt16}

theorem CellId.withCi_self (h : k.ci? = some n) : k.withCi n = k := by
  cases k with
  | wholeGlobal cgi =>
    cases h
    rfl
  | lacAndCi l ci =>
    cases h
    rfl
  | ci ci =>
    cases h
    rfl
  | _ => rfl

/-- The CI passes through a signed number, and the other components through an empty CGI. -/
theorem updateCi_withCi (h : L.ConvertsCi) (hk : k.ci?.isSome = true) :
    updateCi L k n.toInt16 = k.withCi n := by
  have hn : n.toInt16.toUInt16 = n := UInt16.toUInt16_toInt16 n
  show L.cellIdFromCgi k.discr (L.cellIdToCgi (L.cellIdToCgi default k)
    (.ci n.toInt16.toUInt16)) = _
  rw [hn, h.toCgi _ (.ci n) rfl, h.toCgi _ k hk]
  cases k with
  | wholeGlobal cgi => exact h.wholeGlobal _
  | lacAndCi l ci => exact h.lacAndCi _
  | ci ci => exact h.ci _
  | _ => cases hk

/-- The other kinds that can be converted stay as they are. -/
theorem updateCi_latest (h : L.ConvertsKinds) : updateCi L k n.toInt16 = k.latest L n := by
  have hn : n.toInt16.toUInt16 = n := UInt16.toUInt16_toInt16 n
  have hci : ∀ dst, L.cellIdToCgi dst (.ci n) = { dst with cellIdentity := n } :=
    fun dst => h.toCgi dst (.ci n) rfl
  cases k with
  | wholeGlobal cgi => exact updateCi_withCi h.toConvertsCi rfl
  | lacAndCi l ci => exact updateCi_withCi h.toConvertsCi rfl
  | ci ci => exact updateCi_withCi h.toConvertsCi rfl
  | noCell => exact h.noCell _
  | bss => exact h.bss _
  | laiAndLac lai =>
    show L.cellIdFromCgi .laiAndLac (L.cellIdToCgi (L.cellIdToCgi default (.laiAndLac lai))
      (.ci n.toInt16.toUInt16)) = _
    rw [hn, hci, h.toLai, h.laiAndLac]
    rfl
  | lac l =>
    show L.cellIdFromCgi .lac (L.cellIdToCgi (L.cellIdToCgi default (.lac l))
      (.ci n.toInt16.toUInt16)) = _
    rw [hn, hci, h.toLac, h.lac]
    rfl
  | other d raw =>
    show L.cellIdFromCgi (.other d) (L.cellIdToCgi (L.cellIdToCgi default (.other d raw))
      (.ci n.toInt16.toUInt16)) = _
    rw [hn]
    rfl

end Ci

section Store

variable {L : Libosmo} {cells : CellStore} {k : CellId} {ta : UInt8}

theorem radius_eq : radius ta = taToM ta * 1000 := by
  have hlt : ta.toNat < 256 := ta.toNat_lt
  apply UInt32.toNat_inj.mp
  simp only [radius, taToM, UInt32.toNat_ofNat', UInt32.toNat_mul, UInt8.toNat_toUInt32,
    UInt32.toNat_ofNat]
  omega

theorem cellLocationFromTa_named : cellLocationFromTa L cells k ta
    = (cells.named L k).map fun c =>
      ⟨c.lat, c.lon, L.gadDecUnc (L.gadEncUnc (radius ta))⟩ := by
  rw [cellLocationFromTa_first, radius_eq]
  rfl

theorem named_mem {c : CellLocation} (h : cells.named L k = some c) : c ∈ cells := by
  unfold CellStore.named FirstMatch.first at h
  rcases Option.or_eq_some_iff.mp h with h | ⟨-, h⟩
  · exact List.mem_of_find?_eq_some h
  · exact List.mem_of_find?_eq_some h

theorem onGlobe_change {ch : Change} (h : cells.OnGlobe) (hch : ch.Valid L) :
    CellStore.OnGlobe (changeCells L cells ch).2 := by
  obtain ⟨k, pos⟩ := ch
  cases pos with
  | none =>
    show CellStore.OnGlobe (cellLocationRemove L cells k).2
    unfold cellLocationRemove
    split
    · exact h
    · exact fun c hc => h c (List.mem_of_mem_eraseIdx hc)
  | some pos =>
    obtain ⟨lat, lon⟩ := pos
    have hpos := hch.coords lat lon rfl
    show CellStore.OnGlobe (cellLocationSet L cells k lat lon)
    cases hf : cellLocationFind L cells k with
    | none =>
      rw [cellLocationSet_none hf]
      intro c hc
      rcases List.mem_append.mp hc with hc | hc
      · exact h c hc
      · rw [List.mem_singleton.mp hc]
        exact hpos
    | some i =>
      simp only [cellLocationSet, cellLocationFindOrCreate, hf]
      intro c hc
      obtain ⟨j, hj, rfl⟩ := List.getElem_of_mem hc
      rw [List.getElem_modify]
      split
      · exact hpos
      · exact h _ (List.getElem_mem _)

theorem onGlobe_vtyCommand (h : cells.OnGlobe) (cmd : VtyCmd) :
    CellStore.OnGlobe (vtyCommand L cells cmd).2 := by
  rw [vtyCommand_change]
  cases hch : cmd.change L with
  | none => exact h
  | some ch => exact onGlobe_change h (VtyCmd.change_valid hch)

end Store

namespace Effect

/-- The responses for a request. -/
def responses (r : ReqPtr) (e : Effect) : List PerformLocResp :=
  (ofReq r e.told).filterMap Told.response?

/-- The TA is asked for as often as a request without it is accepted. -/
def AsksTa (e : Effect) : Prop := e.encs.count taRequest = e.acts.countP Act.wantsTa

/-- All responses for a request that is not pending are for requests that carry the TA. -/
def AtOnce (L : Libosmo) (cells : CellStore) (r : ReqPtr) (e : Effect) : Prop :=
  e.responses r = e.acts.filterMap (Act.atOnce L cells r)

variable {L : Libosmo} {io : Io} {scu : Bool} {cells : CellStore} {e f : Effect} {s : Session}
  {r : ReqPtr} {p : PeerPtr}

@[simp] theorem responses_nil : nil.responses r = [] := rfl
@[simp] theorem responses_msgb : msgb.responses r = [] := rfl
@[simp] theorem responses_request {c : ConnPtr} : (request c).responses r = [] := rfl

@[simp] theorem responses_append :
    (e ++ f).responses r = e.responses r ++ f.responses r := by
  unfold responses
  rw [told_append, ofReq_append, List.filterMap_append]

theorem responses_act {a : Act} (h : ∀ r c resp, a.told ≠ some (r, .response c resp)) :
    (act a).responses r = [] := by
  unfold responses
  rw [told_act]
  cases ht : a.told with
  | none => rfl
  | some t =>
    obtain ⟨r', t⟩ := t
    by_cases hr : r' = r
    · subst hr
      simp only [Option.toList_some, ofReq_cons_self, ofReq_nil, List.filterMap_cons,
        List.filterMap_nil]
      cases t with
      | response c resp => exact absurd ht (h r' c resp)
      | _ => rfl
    · simp [ofReq_cons_ne hr]

theorem responses_of_told (h : e.told = []) : e.responses r = [] := by
  unfold responses
  rw [h]
  rfl

theorem responses_discardAll (ss : List Session) : (discardAll p ss).responses r = [] := by
  induction ss with
  | nil => rfl
  | cons s ss ih =>
    rw [discardAll, responses_append, ih, List.append_nil]
    simp only [discarded, responses_append]
    rw [responses_act (by simp [Act.told]), responses_act (by simp [Act.told]),
      responses_act (by simp [Act.told])]
    rfl

theorem responses_ended : (ended s).responses r = [] := by
  simp only [ended, responses_append]
  rw [responses_act (by simp [Act.told]), responses_act (by simp [Act.told]),
    responses_act (by simp [Act.told])]
  rfl

theorem responses_sendCo (hio : io.EncodesResponses) {resp : PerformLocResp} :
    (sendCo io scu s (.performLocResp resp)).responses r = if s.req = r then [resp] else [] := by
  unfold responses
  rw [told_sendCo (hio resp)]
  by_cases hr : s.req = r
  · subst hr
    simp [Act.told, Told.response?]
  · simp [Act.told, ofReq_cons_ne hr, hr]

/-- Once the TA is known, the response says where the cell is, or that it is not known. -/
theorem responses_gotTa (hgad : L.GadEncodes) (hio : io.EncodesResponses) (hc : cells.OnGlobe)
    {k : CellId} {ta : UInt8} : (gotTa L io scu cells s k ta).responses r
      = if s.req = r then [positionResp L cells k ta] else [] := by
  unfold gotTa Net.estimate positionResp
  rw [cellLocationFromTa_named]
  cases hn : cells.named L k with
  | none => exact responses_sendCo hio
  | some c =>
    have hpos := hc c (named_mem hn)
    have hrc : ¬(L.gadEnc ⟨c.lat, c.lon, L.gadDecUnc (L.gadEncUnc (radius ta))⟩).1 ≤ 0 := by
      have hlt := hgad ⟨c.lat, c.lon, L.gadDecUnc (L.gadEncUnc (radius ta))⟩ hpos.1 hpos.2
      omega
    simp only [Option.map_some, hrc, if_false, hio _, if_true]
    exact responses_sendCo hio

/-- An answer is for the request that it ends. -/
theorem responses_answer_ne (hgad : L.GadEncodes) (hio : io.EncodesResponses) (hc : cells.OnGlobe)
    (k : Ending) (hr : s.req ≠ r) : (answer L io scu cells s k).responses r = [] := by
  cases k with
  | locAbort => exact responses_act (by simp [Act.told])
  | ta cellId ta => exact (responses_gotTa hgad hio hc).trans (if_neg hr)
  | failure cause => exact (responses_sendCo hio).trans (if_neg hr)

theorem responses_answer (hgad : L.GadEncodes) (hcv : L.ConvertsKinds) (hio : io.EncodesResponses) (hc : cells.OnGlobe)
    (k : Ending) : (answer L io scu cells s k).responses r
      = if s.req = r then (k.response L cells s.pdu.cellId).toList else [] := by
  cases k with
  | locAbort =>
    apply (responses_act (by simp [Act.told])).trans
    split <;> rfl
  | ta cellId ta =>
    rw [Ending.response, ← updateCi_latest hcv]
    exact responses_gotTa hgad hio hc
  | failure cause => exact responses_sendCo hio

section AsksTa

@[simp] theorem asksTa_nil : nil.AsksTa := rfl
@[simp] theorem asksTa_msgb : msgb.AsksTa := rfl
@[simp] theorem asksTa_request {c : ConnPtr} : (request c).AsksTa := rfl

theorem asksTa_act {a : Act} (h : a.wantsTa = false) : (act a).AsksTa := by
  simp [AsksTa, h]

theorem AsksTa.append (he : e.AsksTa) (hf : f.AsksTa) : (e ++ f).AsksTa := by
  unfold AsksTa at he hf ⊢
  rw [encs_append, acts_append, List.count_append, List.countP_append, he, hf]

theorem asksTa_enc {pdu : BssapLePdu} (h : pdu ≠ taRequest) : (enc pdu).AsksTa := by
  simp [AsksTa, h]

theorem asksTa_down {req : ScuReq} : (down io scu req).AsksTa := by
  unfold down
  split <;> rfl

theorem asksTa_sendCo {resp : PerformLocResp} :
    (sendCo io scu s (.performLocResp resp)).AsksTa := by
  have henc : (enc (.bssmapLe (.performLocResp resp))).AsksTa := asksTa_enc (by simp [taRequest])
  unfold sendCo
  split
  · exact (((henc.append asksTa_msgb).append (asksTa_act rfl)).append (asksTa_act rfl)).append
      asksTa_down
  · exact henc

theorem asksTa_sendCl {addr : SccpAddr} {pdu : BssmapLePdu}
    (h : .bssmapLe pdu ≠ taRequest) : (sendCl io scu addr pdu).AsksTa := by
  unfold sendCl
  split
  · exact ((asksTa_enc h).append asksTa_msgb).append asksTa_down
  · exact asksTa_enc h

theorem asksTa_gotTa {k : CellId} {ta : UInt8} : (gotTa L io scu cells s k ta).AsksTa := by
  unfold gotTa
  split
  · exact asksTa_sendCo
  · split
    · exact asksTa_sendCo
    · exact (asksTa_enc (by simp [taRequest])).append asksTa_sendCo

theorem asksTa_answer {k : Ending} : (answer L io scu cells s k).AsksTa := by
  cases k with
  | locAbort => exact asksTa_act rfl
  | ta cellId ta => exact asksTa_gotTa
  | failure cause => exact asksTa_sendCo

theorem asksTa_ended : (ended s).AsksTa :=
  ((asksTa_act rfl).append (asksTa_act rfl)).append (asksTa_act rfl)

theorem asksTa_discardAll (ss : List Session) : (discardAll p ss).AsksTa := by
  induction ss with
  | nil => rfl
  | cons s ss ih =>
    exact (((asksTa_act rfl).append (asksTa_act rfl)).append (asksTa_act rfl)).append ih

end AsksTa

section AtOnce

@[simp] theorem atOnce_nil : nil.AtOnce L cells r := rfl
@[simp] theorem atOnce_msgb : msgb.AtOnce L cells r := rfl
@[simp] theorem atOnce_request {c : ConnPtr} : (request c).AtOnce L cells r := rfl

theorem AtOnce.append (he : e.AtOnce L cells r) (hf : f.AtOnce L cells r) :
    (e ++ f).AtOnce L cells r := by
  unfold AtOnce at he hf ⊢
  rw [responses_append, acts_append, List.filterMap_append, he, hf]

/-- Nothing is accepted, and no response is for the request. -/
theorem atOnce_of_none (h : e.responses r = []) (ha : ∀ a ∈ e.acts, a.atOnce L cells r = none) :
    e.AtOnce L cells r := by
  unfold AtOnce
  rw [h, List.filterMap_eq_nil_iff.mpr ha]

theorem atOnce_act {a : Act} (h : ∀ r c resp, a.told ≠ some (r, .response c resp))
    (ha : a.atOnce L cells r = none) : (act a).AtOnce L cells r := by
  apply atOnce_of_none (responses_act h)
  intro b hb
  rw [List.mem_singleton.mp hb]
  exact ha

theorem answers_atOnce {a : Act} (h : a.Answers s) : a.atOnce L cells r = none := by
  cases a with
  | locReqAccepted r c pdu => exact absurd h id
  | _ => rfl

theorem atOnce_answer (hgad : L.GadEncodes) (hio : io.EncodesResponses) (hc : cells.OnGlobe)
    (k : Ending) (hr : s.req ≠ r) : (answer L io scu cells s k).AtOnce L cells r := by
  exact atOnce_of_none (responses_answer_ne hgad hio hc k hr) fun a ha =>
    answers_atOnce (answer_answers ha)

theorem atOnce_ended : (ended s).AtOnce L cells r :=
  ((atOnce_act (by simp [Act.told]) rfl).append (atOnce_act (by simp [Act.told]) rfl)).append
    (atOnce_act (by simp [Act.told]) rfl)

theorem atOnce_discardAll (ss : List Session) : (discardAll p ss).AtOnce L cells r := by
  induction ss with
  | nil => rfl
  | cons s ss ih =>
    exact (((atOnce_act (by simp [Act.told]) rfl).append (atOnce_act (by simp [Act.told]) rfl)).append
      (atOnce_act (by simp [Act.told]) rfl)).append ih

theorem atOnce_sendCl {addr : SccpAddr} {pdu : BssmapLePdu} :
    (sendCl io scu addr pdu).AtOnce L cells r := by
  apply atOnce_of_none (responses_of_told told_sendCl)
  intro a ha
  obtain ⟨rc, rfl⟩ := sendCl_acts ha
  rfl

end AtOnce
end Effect

namespace Service

open Effect

variable {L : Libosmo} {io : Io} {a : Service} {s : Session} {connId : ConnId} {m : Msg}
  {addr : SccpAddr} {p : PeerPtr} {x : LbPeer} {r : ReqPtr} {pdu : PerformLocReq} {i : Input}

section AsksTa

theorem finishEffect_asksTa {k : Ending} : (a.finishEffect L io s k).AsksTa :=
  asksTa_answer.append asksTa_ended

theorem dataEffect_asksTa : (a.dataEffect L io connId m).AsksTa := by
  unfold dataEffect
  split
  · apply (asksTa_act rfl).append
    cases m with
    | ignored => exact asksTa_nil
    | request pdu => exact asksTa_request
    | ending k => exact finishEffect_asksTa
  · exact asksTa_nil

/-- One TA Request is attempted, unless the request carries the TA. -/
theorem openSessionEffect_asksTa : (a.openSessionEffect L io p connId pdu).AsksTa := by
  let s : Session := ⟨a.next.conn, connId, p, none, a.next.req, pdu⟩
  by_cases hta : ∃ ta, pdu.apdu = some (.taLayer3 ta)
  · obtain ⟨ta, hta⟩ := hta
    rw [openSessionEffect_answered hta]
    have hacc : (act (.locReqAccepted s.req s.conn pdu)).AsksTa :=
      asksTa_act (by simp [Act.wantsTa, hta])
    exact ((((asksTa_request.append asksTa_gotTa).append (asksTa_act rfl)).append hacc).append
      (asksTa_act rfl)).append (asksTa_act rfl)
  · have hta' : ∀ ta, pdu.apdu ≠ some (.taLayer3 ta) := fun ta h => hta ⟨ta, h⟩
    rw [openSessionEffect_pending hta']
    have hwants : (Act.locReqAccepted s.req s.conn pdu).wantsTa = true := by
      simp [Act.wantsTa]
    have hencs : (sendCo io a.net.scu s (.connOrientedInfo .taRequest)).encs = [taRequest] := by
      have hdown : ∀ req, (down io a.net.scu req).encs = [] := by
        intro req
        unfold down
        split <;> rfl
      unfold sendCo
      split
      · simp only [encs_append, hdown]
        rfl
      · rfl
    have hacts : (sendCo io a.net.scu s (.connOrientedInfo .taRequest)).acts.countP Act.wantsTa
        = 0 := by
      apply List.countP_eq_zero.mpr
      intro act hact
      have hans := sendCo_answers hact
      cases act with
      | locReqAccepted r c pdu => exact absurd hans id
      | _ => simp [Act.wantsTa]
    show (request s.conn ++ sendCo io a.net.scu s (.connOrientedInfo .taRequest)
      ++ act (.locReqAccepted s.req s.conn pdu)).AsksTa
    unfold AsksTa
    rw [encs_append, encs_append, acts_append, acts_append, hencs, List.countP_append,
      List.countP_append, hacts]
    have hone : (act (.locReqAccepted s.req s.conn pdu)).acts.countP Act.wantsTa = 1 := by
      simp [hwants]
    rw [hone]
    rfl

theorem connectToEffect_asksTa : (a.connectToEffect L io x connId m).AsksTa := by
  unfold connectToEffect
  split
  · exact asksTa_sendCl (by simp [taRequest])
  · exact (asksTa_act rfl).append (asksTa_sendCl (by simp [taRequest]))
  · cases m with
    | ignored => exact (asksTa_act rfl).append (asksTa_act rfl)
    | request pdu => exact openSessionEffect_asksTa
    | ending k => exact asksTa_nil
  · exact asksTa_nil

theorem effect_asksTa : (a.effect L i).AsksTa := by
  obtain ⟨ev, io⟩ := i
  cases ev with
  | scu prim =>
    apply asksTa_msgb.append
    cases prim with
    | nConnect connId addr l2 =>
      unfold rxPrimEffect connectEffect
      dsimp only
      split
      · exact asksTa_nil
      · apply (asksTa_act rfl).append
        split
        · exact asksTa_act rfl
        · exact (asksTa_act rfl).append connectToEffect_asksTa
    | nData connId l2 => exact dataEffect_asksTa
    | nDisconnect connId l2 =>
      unfold rxPrimEffect
      dsimp only
      split
      · exact dataEffect_asksTa.append (asksTa_act rfl)
      · exact asksTa_nil.append (asksTa_act rfl)
    | nUnitdata addr l2 =>
      unfold rxPrimEffect unitdataEffect
      dsimp only
      split
      · exact (((asksTa_act rfl).append (asksTa_act rfl)).append (asksTa_discardAll _)).append
          (asksTa_sendCl (by simp [taRequest]))
      · exact (asksTa_act rfl).append (asksTa_act rfl)
      · exact asksTa_act rfl
    | unsupported l2 => exact asksTa_nil
  | locReqTimer r =>
    show (a.locReqTimeoutEffect L io r).AsksTa
    unfold locReqTimeoutEffect
    split
    · exact finishEffect_asksTa
    · exact asksTa_nil
  | lbPeerTimer p => exact asksTa_nil
  | vty cmd => exact asksTa_nil

end AsksTa

section AtOnce

variable (hgad : L.GadEncodes) (hio : io.EncodesResponses) (hc : a.cellLocations.OnGlobe)
include hgad hio hc

theorem finishEffect_atOnce {k : Ending} (hr : s.req ≠ r) :
    (a.finishEffect L io s k).AtOnce L a.cellLocations r :=
  (atOnce_answer hgad hio hc k hr).append atOnce_ended

theorem dataEffect_atOnce (hr : ∀ s ∈ a.sessions, s.req ≠ r) :
    (a.dataEffect L io connId m).AtOnce L a.cellLocations r := by
  unfold dataEffect
  split
  · rename_i s hs
    apply (atOnce_act (by simp [Act.told]) rfl).append
    cases m with
    | ignored => exact atOnce_nil
    | request pdu => exact atOnce_request
    | ending k => exact finishEffect_atOnce hgad hio hc (hr s (List.mem_of_find?_eq_some hs))
  · exact atOnce_nil

theorem openSessionEffect_atOnce :
    (a.openSessionEffect L io p connId pdu).AtOnce L a.cellLocations r := by
  let s : Session := ⟨a.next.conn, connId, p, none, a.next.req, pdu⟩
  by_cases hta : ∃ ta, pdu.apdu = some (.taLayer3 ta)
  · obtain ⟨ta, hta⟩ := hta
    rw [openSessionEffect_answered hta]
    have hgot : (gotTa L io a.net.scu a.cellLocations s pdu.cellId ta ++ act (.locReqCleanup s.req)
        ++ act (.locReqAccepted s.req s.conn pdu)).AtOnce L a.cellLocations r := by
      have hnone : (gotTa L io a.net.scu a.cellLocations s pdu.cellId ta).acts.filterMap
          (Act.atOnce L a.cellLocations r) = [] :=
        List.filterMap_eq_nil_iff.mpr fun act hact => answers_atOnce (gotTa_answers hact)
      unfold AtOnce
      simp only [responses_append, acts_append, acts_act, List.filterMap_append, hnone,
        responses_gotTa hgad hio hc]
      rw [responses_act (by simp [Act.told]), responses_act (by simp [Act.told])]
      by_cases hr : s.req = r
      · simp [Act.atOnce, hr, hta]
      · simp [Act.atOnce, hr]
    have hreq : (request s.conn).AtOnce L a.cellLocations r := rfl
    have hend : ∀ act : Act, act = .disconn connId ∨ act = .connFree s.conn →
        (Effect.act act).AtOnce L a.cellLocations r := by
      rintro act (rfl | rfl)
      · exact atOnce_act (by simp [Act.told]) rfl
      · exact atOnce_act (by simp [Act.told]) rfl
    have hall := ((hreq.append hgot).append (hend _ (.inl rfl))).append (hend _ (.inr rfl))
    unfold AtOnce at hall ⊢
    simpa only [responses_append, acts_append, List.append_assoc] using hall
  · have hta' : ∀ ta, pdu.apdu ≠ some (.taLayer3 ta) := fun ta h => hta ⟨ta, h⟩
    rw [openSessionEffect_pending hta']
    have hsend : (sendCo io a.net.scu s (.connOrientedInfo .taRequest)).AtOnce L a.cellLocations r :=
      atOnce_of_none (responses_of_told told_taRequest) fun act hact =>
        answers_atOnce (sendCo_answers hact)
    refine (atOnce_request.append hsend).append (atOnce_act (by simp [Act.told]) ?_)
    unfold Act.atOnce
    dsimp only
    split
    · split
      · rename_i ta heq
        exact absurd heq (hta' ta)
      · rfl
    · rfl

theorem connectToEffect_atOnce :
    (a.connectToEffect L io x connId m).AtOnce L a.cellLocations r := by
  unfold connectToEffect
  split
  · exact atOnce_sendCl
  · exact (atOnce_act (by simp [Act.told]) rfl).append atOnce_sendCl
  · cases m with
    | ignored =>
      exact (atOnce_act (by simp [Act.told]) rfl).append (atOnce_act (by simp [Act.told]) rfl)
    | request pdu => exact openSessionEffect_atOnce hgad hio hc
    | ending k => exact atOnce_nil
  · exact atOnce_nil

theorem connectEffect_atOnce :
    (a.connectEffect L io connId addr m).AtOnce L a.cellLocations r := by
  unfold connectEffect
  split
  · exact atOnce_act (by simp [Act.told]) rfl
  · exact (atOnce_act (by simp [Act.told]) rfl).append (connectToEffect_atOnce hgad hio hc)

omit hgad hio hc in
theorem unitdataEffect_atOnce {l2 : List UInt8} :
    (a.unitdataEffect L io addr l2).AtOnce L a.cellLocations r := by
  unfold unitdataEffect
  dsimp only
  split
  · exact (((atOnce_act (by simp [Act.told]) rfl).append (atOnce_act (by simp [Act.told]) rfl)).append
      (atOnce_discardAll _)).append atOnce_sendCl
  · exact (atOnce_act (by simp [Act.told]) rfl).append (atOnce_act (by simp [Act.told]) rfl)
  · exact atOnce_act (by simp [Act.told]) rfl

omit hio in
theorem effect_atOnce (hio : i.io.EncodesResponses) (hr : ∀ s ∈ a.sessions, s.req ≠ r) :
    (a.effect L i).AtOnce L a.cellLocations r := by
  obtain ⟨ev, io⟩ := i
  cases ev with
  | scu prim =>
    apply atOnce_msgb.append
    cases prim with
    | nConnect connId addr l2 =>
      unfold rxPrimEffect
      dsimp only
      split
      · exact atOnce_nil
      · exact (atOnce_act (by simp [Act.told]) rfl).append (connectEffect_atOnce hgad hio hc)
    | nData connId l2 => exact dataEffect_atOnce hgad hio hc hr
    | nDisconnect connId l2 =>
      unfold rxPrimEffect
      dsimp only
      split
      · exact (dataEffect_atOnce hgad hio hc hr).append (atOnce_act (by simp [Act.told]) rfl)
      · exact atOnce_nil.append (atOnce_act (by simp [Act.told]) rfl)
    | nUnitdata addr l2 => exact unitdataEffect_atOnce
    | unsupported l2 => exact atOnce_nil
  | locReqTimer r' =>
    show (a.locReqTimeoutEffect L io r').AtOnce L a.cellLocations r
    unfold locReqTimeoutEffect
    split
    · rename_i s hs
      exact finishEffect_atOnce hgad hio hc (hr s (List.mem_of_find?_eq_some hs))
    · exact atOnce_nil
  | lbPeerTimer p => exact atOnce_nil
  | vty cmd => exact atOnce_nil

end AtOnce

section Pending

variable (hgad : L.GadEncodes) (hcv : L.ConvertsKinds) (hio : io.EncodesResponses) (hc : a.cellLocations.OnGlobe)
include hgad hcv hio hc

theorem finishEffect_responses {k : Ending} : (a.finishEffect L io s k).responses r
    = if s.req = r then (k.response L a.cellLocations s.pdu.cellId).toList else [] := by
  rw [finishEffect, responses_append, responses_ended, List.append_nil,
    responses_answer hgad hcv hio hc]

theorem dataEffect_responses (h : a.WF) (hs : s ∈ a.sessions) :
    (a.dataEffect L io connId m).responses s.req
      = ((if connId = s.connId then m.ending? else none).bind
          (Ending.response L a.cellLocations s.pdu.cellId)).toList := by
  cases hfind : a.sessions.find? fun t => t.connId = connId with
  | none =>
    have hne : connId ≠ s.connId := fun heq => by simpa [heq] using List.find?_eq_none.mp hfind s hs
    rw [(data_none hfind).2, if_neg hne]
    rfl
  | some t =>
    have ht : t ∈ a.sessions := List.mem_of_find?_eq_some hfind
    have hid : t.connId = connId := by simpa using List.find?_some hfind
    rw [(data_some hfind).2, responses_append, responses_act (by simp [Act.told]), List.nil_append]
    by_cases heq : connId = s.connId
    · obtain rfl : t = s := List.inj_on_of_nodup_map h.connIds ht hs (hid.trans heq)
      rw [if_pos heq]
      cases m with
      | ignored => rfl
      | request pdu => exact responses_request
      | ending k =>
        apply (finishEffect_responses hgad hcv hio hc).trans
        rw [if_pos rfl]
        rfl
    · have hne : t.req ≠ s.req := by
        intro hreq
        rw [List.inj_on_of_nodup_map h.reqs ht hs hreq] at hid
        exact heq hid.symm
      rw [if_neg heq]
      cases m with
      | ignored => rfl
      | request pdu => exact responses_request
      | ending k =>
        apply (finishEffect_responses hgad hcv hio hc).trans
        rw [if_neg hne]
        rfl

omit hcv in
/-- A new connection brings no response for an older request. -/
theorem openSessionEffect_older (hr : a.next.req ≠ r) :
    (a.openSessionEffect L io p connId pdu).responses r = [] := by
  by_cases hta : ∃ ta, pdu.apdu = some (.taLayer3 ta)
  · obtain ⟨ta, hta⟩ := hta
    rw [openSessionEffect_answered hta]
    simp only [responses_append, responses_request, responses_gotTa hgad hio hc, if_neg hr]
    rw [responses_act (by simp [Act.told]), responses_act (by simp [Act.told]),
      responses_act (by simp [Act.told]), responses_act (by simp [Act.told])]
    rfl
  · have hta' : ∀ ta, pdu.apdu ≠ some (.taLayer3 ta) := fun ta h => hta ⟨ta, h⟩
    rw [openSessionEffect_pending hta', responses_append, responses_append, responses_request,
      responses_of_told told_taRequest, responses_act (by simp [Act.told])]
    rfl

omit hcv in
theorem connectEffect_older (hr : a.next.req ≠ r) :
    (a.connectEffect L io connId addr m).responses r = [] := by
  unfold connectEffect
  split
  · exact responses_act (by simp [Act.told])
  · rw [responses_append, responses_act (by simp [Act.told]), List.nil_append]
    unfold connectToEffect
    split
    · exact responses_of_told told_sendCl
    · rw [responses_append, responses_act (by simp [Act.told]), responses_of_told told_sendCl]
      rfl
    · cases m with
      | ignored =>
        apply responses_append.trans
        rw [responses_act (by simp [Act.told]), responses_act (by simp [Act.told])]
        rfl
      | request pdu => exact openSessionEffect_older hgad hio hc hr
      | ending k => rfl
    · rfl

omit hio in
/-- A pending request gets the response that it ends with in this event, if it ends. -/
theorem effect_responses (hio : i.io.EncodesResponses) (h : a.WF) (hs : s ∈ a.sessions) :
    (a.effect L i).responses s.req
      = ((i.ev.endingFor L s.connId s.req).bind
          (Ending.response L a.cellLocations s.pdu.cellId)).toList := by
  obtain ⟨ev, io⟩ := i
  cases ev with
  | scu prim =>
    apply responses_append.trans
    rw [responses_msgb, List.nil_append]
    cases prim with
    | nConnect connId addr l2 =>
      have hr : a.next.req ≠ s.req := Ne.symm (Nat.ne_of_lt (h.reqBound s hs))
      unfold rxPrimEffect
      dsimp only
      split
      · rfl
      · rw [responses_append, responses_act (by simp [Act.told]),
          connectEffect_older hgad hio hc hr]
        rfl
    | nData connId l2 => exact dataEffect_responses hgad hcv hio hc h hs
    | nDisconnect connId l2 =>
      unfold rxPrimEffect
      rw [responses_append, responses_act (by simp [Act.told]), List.append_nil]
      by_cases hl : l2.length ≠ 0
      · rw [if_pos hl, dataEffect_responses hgad hcv hio hc h hs]
        simp only [Event.endingFor, hl, and_true, ne_eq, not_false_eq_true]
      · have hno : ¬(connId = s.connId ∧ l2.length ≠ 0) := fun hand => hl hand.2
        rw [if_neg hl]
        simp only [Event.endingFor, if_neg hno]
        rfl
    | nUnitdata addr l2 =>
      show (a.unitdataEffect L io addr l2).responses s.req = []
      unfold unitdataEffect
      dsimp only
      split
      · rw [responses_append, responses_append, responses_append, responses_act (by simp [Act.told]),
          responses_act (by simp [Act.told]), responses_discardAll, responses_of_told told_sendCl]
        rfl
      · rw [responses_append, responses_act (by simp [Act.told]), responses_act (by simp [Act.told])]
        rfl
      · exact responses_act (by simp [Act.told])
    | unsupported l2 => rfl
  | locReqTimer r =>
    show (a.locReqTimeoutEffect L io r).responses s.req = _
    cases hfind : a.sessions.find? fun t => t.req = r with
    | none =>
      have hne : r ≠ s.req := fun heq => by simpa [heq] using List.find?_eq_none.mp hfind s hs
      rw [(locReqTimeout_none hfind).2]
      simp only [Event.endingFor, if_neg hne]
      rfl
    | some t =>
      have ht : t ∈ a.sessions := List.mem_of_find?_eq_some hfind
      have hid : t.req = r := by simpa using List.find?_some hfind
      rw [(locReqTimeout_some hfind).2, finishEffect_responses hgad hcv hio hc, hid]
      by_cases heq : r = s.req
      · obtain rfl : t = s := List.inj_on_of_nodup_map h.reqs ht hs (hid.trans heq)
        simp only [Event.endingFor, if_pos heq]
        rfl
      · simp only [Event.endingFor, if_neg heq]
        rfl
  | lbPeerTimer p => rfl
  | vty cmd => rfl

end Pending

end Service

/-- What a step records for a request. -/
theorem responses_newActs {L : Libosmo} {a a' : Service} {i : Input} {w' : World}
    (hr : StepRecord L a i w' a') (r : ReqPtr) :
    responses r (newActs a.world w') = (a.effect L i).responses r := by
  have htold : (newActs a.world w').filterMap Act.told = (a.effect L i).told := by
    rw [Effect.told, ← hr.seen, filterMap_seen]
    intro b
    cases b <;> rfl
  rw [responses, toldOf, htold]
  rfl

end OsmoSmlc
