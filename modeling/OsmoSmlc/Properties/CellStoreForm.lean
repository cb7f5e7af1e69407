import OsmoSmlc.Cells.Store
import OsmoSmlc.Model.Sample

/-! The form of the store of cell positions after any configuration session. -/
namespace OsmoSmlc
open Osmo

section Lookup

variable {L : Libosmo} {cells cells' : CellStore}

theorem CellStore.WF.nodup (h : CellStore.WF L cells) :
    (cells.map CellLocation.cellId).Nodup := by
  refine List.pairwise_map.mpr (h.apart.imp fun {a b} hab heq => ?_)
  rw [heq, CellId.agrees_self] at hab
  cases hab

/-- At most one entry matches a CGI at all, so that the order of entries does not matter. -/
theorem CellStore.WF.fromTa_perm (hm : L.CellIdsMatch) (h : CellStore.WF L cells)
    (hp : cells.Perm cells') (cgi : CellGlobalId) (ta : UInt8) :
    cellLocationFromTa L cells' (.wholeGlobal cgi) ta
      = cellLocationFromTa L cells (.wholeGlobal cgi) ta := by
  have hagree : ∀ c ∈ cells, ∀ exact : Bool,
      L.cellIdsMatch c.cellId (.wholeGlobal cgi) exact = true →
      c.cellId.agrees (.wholeGlobal cgi) = true := by
    intro c hc exact hmatch
    have hconf := h.configurable c hc
    have hk : (CellId.wholeGlobal cgi).Configurable := trivial
    cases exact with
    | true =>
      rw [(hm.exact _ _ hconf hk).mp hmatch]
      exact CellId.agrees_self
    | false => exact (hm.loose _ _ hconf hk).mp hmatch
  have huniq : ∀ c ∈ cells, ∀ d ∈ cells, c.cellId.agrees (.wholeGlobal cgi) = true →
      d.cellId.agrees (.wholeGlobal cgi) = true → c = d := by
    intro c hc d hd hck hdk
    exact h.unique hc hd
      (CellId.agrees_of_cgi (h.configurable c hc) (h.configurable d hd) hck hdk)
  rw [cellLocationFromTa_first, cellLocationFromTa_first, FirstMatch.first_perm hp]
  · exact fun c hc d hd hck hdk =>
      huniq c hc d hd (hagree c hc true hck) (hagree d hd true hdk)
  · exact fun _ c hc d hd hck hdk =>
      huniq c hc d hd (hagree c hc false hck) (hagree d hd false hdk)

end Lookup

/-- After any commands every entry is for a LAC with CI or for a CGI, at a position within the
bounds, no two have the same identifier, and a CGI is found in any order of the entries. Nothing
is lost when a coordinate is stored in 32 bits, and a failed command changes nothing. -/
theorem vtyCommands_form (L : Libosmo) (hm : L.CellIdsMatch) (cmds : List VtyCmd) :
    let cells := vtyCommands L [] cmds
    (∀ c ∈ cells, c.cellId.Configurable ∧ (-90000000 ≤ c.lat.toInt ∧ c.lat.toInt ≤ 90000000) ∧
      (-180000000 ≤ c.lon.toInt ∧ c.lon.toInt ≤ 180000000)) ∧
    (cells.map CellLocation.cellId).Nodup ∧
    (∀ cells' : CellStore, cells.Perm cells' → ∀ cgi ta,
      cellLocationFromTa L cells' (.wholeGlobal cgi) ta
        = cellLocationFromTa L cells (.wholeGlobal cgi) ta) ∧
    (∀ bound, bound = 90000000 ∨ bound = 180000000 → ∀ str v, vtyParseCoord L bound str = some v →
      ∃ val, L.floatStrToInt str 6 = some val ∧ v.toInt = val.toInt) ∧
    ∀ cmd, (vtyCommand L cells cmd).1 ≠ .success → (vtyCommand L cells cmd).2 = cells := by
  intro cells
  have h : CellStore.WF L cells := CellStore.nil_wf.vtyCommands hm cmds
  refine ⟨fun c hc => ?_, h.nodup, fun cells' hp => h.fromTa_perm hm hp, ?_,
    fun cmd => vtyCommand_failed⟩
  · have hv := h.valid c hc
    exact ⟨hv.named.configurable, hv.lat, hv.lon⟩
  · intro bound hb str v hv
    obtain ⟨val, hval, hv, -⟩ := vtyParseCoord_value hb hv
    exact ⟨val, hval, hv⟩

/-- Two cells of different kinds with the same LAC and CI share an entry. -/
theorem vtyCommands_form_two :
    let cmds : List VtyCmd := [.lacCi "23" "42" "1.5" "-2.5", .cgi "262" "42" "23" "42" "3" "4",
      .cgi "901" "70" "23" "43" "3" "4"]
    ((vtyCommands Sample.libosmo [] cmds).map CellLocation.cellId).Nodup ∧
    (vtyCommands Sample.libosmo [] cmds).length = 2 :=
  ⟨(vtyCommands_form Sample.libosmo Sample.libosmo_cellIdsMatch _).2.1, by decide +kernel⟩

end OsmoSmlc
