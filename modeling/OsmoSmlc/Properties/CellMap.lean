import OsmoSmlc.Cells.Map
import OsmoSmlc.Model.Sample

/-! The configuration commands against the map from identifiers to positions. The search that
finds the entry to change also accepts loose matches, so a command can change the position of
another cell, or remove it. -/
namespace OsmoSmlc
open Osmo

/-- A position is set for exactly its identifier where this has an entry or matches none.
After a session of such commands every identifier is found at its last position. -/
theorem cellLocationSet_exactly_iff (L : Libosmo) (hm : L.CellIdsMatch) :
    (∀ cmds k, k.Configurable → ∀ lat lon,
      (SetsExactly L (vtyCommands L [] cmds) k lat lon ↔ Clear (vtyCommands L [] cmds) k)) ∧
    ∀ cmds, ClearSession L cmds → ∀ k lat lon, configured L cmds k = some (lat, lon) → ∀ ta,
      cellLocationFromTa L (vtyCommands L [] cmds) k ta
        = some ⟨lat, lon, L.gadDecUnc (L.gadEncUnc (taToM ta * 1000))⟩ := by
  constructor
  · intro cmds k hk lat lon
    exact set_exactly_iff hm (CellStore.nil_wf.vtyCommands hm cmds) hk
  · intro cmds hc k lat lon hk ta
    rw [← vtyCommands_refines hm hc] at hk
    exact cellLocationFromTa_mapOf hm (CellStore.nil_wf.vtyCommands hm cmds) hk ta

/-- One cell is configured and found; another one is set next to it. -/
theorem cellLocationSet_exactly_iff_one :
    let cmds : List VtyCmd := [.lacCi "23" "42" "1.5" "-2.5"]
    SetsExactly Sample.libosmo (vtyCommands Sample.libosmo [] cmds) (.lacAndCi 23 43) 1 2 ∧
    cellLocationFromTa Sample.libosmo (vtyCommands Sample.libosmo [] cmds) (.lacAndCi 23 42) 1
      = some ⟨1500000, -2500000, 537636⟩ := by
  intro cmds
  have h := cellLocationSet_exactly_iff Sample.libosmo Sample.libosmo_cellIdsMatch
  have hsession : ClearSession Sample.libosmo cmds :=
    clearSession_concat.mpr ⟨clearSession_nil, fun ch _ => .inr nofun⟩
  refine ⟨(h.1 cmds (.lacAndCi 23 43) trivial 1 2).mpr (.inr (by decide +kernel)), ?_⟩
  have hconf : configured Sample.libosmo cmds (.lacAndCi 23 42) = some (1500000, -2500000) := by
    decide +kernel
  have hunc : Sample.libosmo.gadDecUnc (Sample.libosmo.gadEncUnc (taToM 1 * 1000)) = 537636 := by
    decide +kernel
  rw [h.2 cmds hsession _ _ _ hconf 1, hunc]

/-- A CGI takes over the entry of a LAC with CI. -/
theorem cellLocationSet_exactly_overlap :
    ¬ ∀ cmds k, k.Configurable → ∀ lat lon,
      SetsExactly Sample.libosmo (vtyCommands Sample.libosmo [] cmds) k lat lon := by
  intro h
  have hentry := (h [.lacCi "23" "42" "1.5" "-2.5"] (.wholeGlobal ⟨⟨⟨262, 42, false⟩, 23⟩, 42⟩)
    trivial 3 4).entry
  revert hentry
  decide +kernel

/-- An identifier is removed, or reported as not configured, where it has an entry or matches
none. The removal commands do the same. -/
theorem cellLocationRemove_exactly_iff (L : Libosmo) (hm : L.CellIdsMatch) (cmds : List VtyCmd)
    {k : CellId} (hk : k.Configurable) :
    let cells := vtyCommands L [] cmds
    (RemovesExactly L cells k ↔ Clear cells k) ∧
    ∀ cmd : VtyCmd, cmd.change L = some (k, none) →
      ((vtyCommand L cells cmd).1 = .success ↔ (cellLocationRemove L cells k).1 = 0) ∧
      (vtyCommand L cells cmd).2 = (cellLocationRemove L cells k).2 := by
  intro cells
  refine ⟨remove_exactly_iff hm (CellStore.nil_wf.vtyCommands hm cmds) hk, fun cmd hch => ?_⟩
  rw [vtyCommand_change, hch]
  refine ⟨?_, rfl⟩
  show (if (cellLocationRemove L cells k).1 ≠ 0 then CmdResult.warning else .success) = _ ↔ _
  by_cases hrc : (cellLocationRemove L cells k).1 = 0
  · simp [hrc]
  · simp [hrc]

/-- The entry that is named is removed. -/
theorem cellLocationRemove_exactly_iff_one :
    let cells := vtyCommands Sample.libosmo [] [.lacCi "23" "42" "1.5" "-2.5",
      .cgi "262" "42" "23" "43" "3" "4"]
    RemovesExactly Sample.libosmo cells (.lacAndCi 23 42) ∧
    (vtyCommand Sample.libosmo cells (.noLacCi "23" "42")).2 = [⟨.wholeGlobal
      ⟨⟨⟨262, 42, false⟩, 23⟩, 43⟩, 3000000, 4000000⟩] := by
  intro cells
  have h := cellLocationRemove_exactly_iff Sample.libosmo Sample.libosmo_cellIdsMatch
    [.lacCi "23" "42" "1.5" "-2.5", .cgi "262" "42" "23" "43" "3" "4"]
    (k := .lacAndCi 23 42) trivial
  have hx : ∃ c ∈ cells, c.cellId = .lacAndCi 23 42 := by decide +kernel
  refine ⟨h.1.mpr (.inl hx), ?_⟩
  rw [(h.2 (.noLacCi "23" "42") (by decide +kernel)).2]
  decide +kernel

/-- Removing a CGI removes the entry of a LAC with CI. -/
theorem cellLocationRemove_exactly_overlap :
    ¬ ∀ cmds k, k.Configurable → RemovesExactly Sample.libosmo (vtyCommands Sample.libosmo [] cmds) k := by
  intro h
  have hp := (h [.lacCi "23" "42" "1.5" "-2.5"] (.wholeGlobal ⟨⟨⟨262, 42, false⟩, 23⟩, 42⟩)
    trivial).success
  revert hp
  decide +kernel

end OsmoSmlc
