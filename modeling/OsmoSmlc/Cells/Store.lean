import Mathlib.Data.List.Pairwise
import OsmoSmlc.Core.FirstMatch
import OsmoSmlc.Model.CellLocations

/-! The store of cell positions over configuration sessions: which entries a search finds,
what a command asks for, and what holds of the entries after any commands. -/
namespace OsmoSmlc
open Osmo

section Agree

variable {α : Type} [DecidableEq α] {x y : Option α}

theorem agree_self : agree x x = true := by
  cases x <;> simp [agree]

theorem agree_comm : agree x y = agree y x := by
  cases x with
  | none => cases y <;> rfl
  | some x =>
    cases y with
    | none => rfl
    | some y => simp [agree, eq_comm]

end Agree

namespace CellId

variable {a b : CellId} {k : CellGlobalId}

theorem agrees_self : a.agrees a = true := by
  simp [agrees, agree_self]

theorem agrees_comm : a.agrees b = b.agrees a := by
  simp only [agrees, agree_comm]

/-- What agrees with the same CGI agrees with each other. -/
theorem agrees_of_cgi (ha : a.Configurable) (hb : b.Configurable)
    (hak : a.agrees (.wholeGlobal k) = true) (hbk : b.agrees (.wholeGlobal k) = true) :
    a.agrees b = true := by
  cases a with
  | wholeGlobal a =>
    cases b with
    | wholeGlobal b =>
      simp only [agrees, plmn?, lac?, ci?, agree, Bool.and_eq_true, decide_eq_true_eq] at hak hbk ⊢
      obtain ⟨⟨hp, hl⟩, hc⟩ := hak
      obtain ⟨⟨hp', hl'⟩, hc'⟩ := hbk
      exact ⟨⟨hp.trans hp'.symm, hl.trans hl'.symm⟩, hc.trans hc'.symm⟩
    | lacAndCi l c =>
      simp only [agrees, plmn?, lac?, ci?, agree, Bool.and_eq_true, decide_eq_true_eq] at hak hbk ⊢
      exact ⟨⟨trivial, hak.1.2.trans hbk.1.2.symm⟩, hak.2.trans hbk.2.symm⟩
    | _ => exact absurd hb id
  | lacAndCi l c =>
    cases b with
    | wholeGlobal b =>
      simp only [agrees, plmn?, lac?, ci?, agree, Bool.and_eq_true, decide_eq_true_eq] at hak hbk ⊢
      exact ⟨⟨trivial, hak.1.2.trans hbk.1.2.symm⟩, hak.2.trans hbk.2.symm⟩
    | lacAndCi l' c' =>
      simp only [agrees, plmn?, lac?, ci?, agree, Bool.and_eq_true, decide_eq_true_eq] at hak hbk ⊢
      exact ⟨⟨trivial, hak.1.2.trans hbk.1.2.symm⟩, hak.2.trans hbk.2.symm⟩
    | _ => exact absurd hb id
  | _ => exact absurd ha id

/-- An identifier that a command can name: the codes of a CGI were read from strings. -/
def Named (L : Libosmo) : CellId → Prop
  | .lacAndCi _ _ => True
  | .wholeGlobal cgi => (∃ str, L.mccFromStr str = some cgi.lai.plmn.mcc) ∧
      ∃ str, L.mncFromStr str = some (cgi.lai.plmn.mnc, cgi.lai.plmn.mnc3Digits)
  | _ => False

theorem Named.configurable {L : Libosmo} (h : a.Named L) : a.Configurable := by
  cases a with
  | wholeGlobal cgi => trivial
  | lacAndCi lac ci => trivial
  | _ => exact h

end CellId

/-- A coordinate that `vty_parse_location` lets through. -/
def Coord (bound : Int64) (v : Int32) : Prop := -bound.toInt ≤ v.toInt ∧ v.toInt ≤ bound.toInt

structure CellLocation.Valid (L : Libosmo) (c : CellLocation) : Prop where
  named : c.cellId.Named L
  lat : Coord 90000000 c.lat
  lon : Coord 180000000 c.lon

/-- All entries are valid, and no two of them match, not even loosely. -/
structure CellStore.WF (L : Libosmo) (cells : CellStore) : Prop where
  valid : ∀ c ∈ cells, c.Valid L
  apart : cells.Pairwise fun a b => a.cellId.agrees b.cellId = false

namespace CellStore

variable {L : Libosmo} {cells cells' pre post : CellStore} {k : CellId} {x : CellLocation}
  {lat lon : Int32}

theorem nil_wf : WF L [] := ⟨nofun, List.Pairwise.nil⟩

theorem WF.configurable (h : WF L cells) : ∀ c ∈ cells, c.cellId.Configurable :=
  fun c hc => (h.valid c hc).named.configurable

theorem WF.sublist (h : WF L cells) (hs : cells'.Sublist cells) : WF L cells' :=
  ⟨fun c hc => h.valid c (hs.subset hc), h.apart.sublist hs⟩

/-- An entry is known by its identifier, and by any that agrees with it. -/
theorem WF.unique (h : WF L cells) {a b : CellLocation} (ha : a ∈ cells) (hb : b ∈ cells)
    (hab : a.cellId.agrees b.cellId = true) : a = b := by
  by_contra hne
  have hsymm : Std.Symm fun a b : CellLocation => a.cellId.agrees b.cellId = false :=
    ⟨fun a b hab => by rwa [CellId.agrees_comm]⟩
  have hfalse := h.apart.forall ha hb hne
  rw [hab] at hfalse
  cases hfalse

theorem WF.split (h : WF L (pre ++ x :: post)) :
    (∀ c ∈ pre, c.cellId.agrees x.cellId = false) ∧
    ∀ c ∈ post, x.cellId.agrees c.cellId = false := by
  have hpw := List.pairwise_append.mp h.apart
  refine ⟨fun c hc => hpw.2.2 c hc x List.mem_cons_self, ?_⟩
  exact (List.pairwise_cons.mp hpw.2.1).1

/-- Other entries have other identifiers. -/
theorem WF.split_ne (h : WF L (pre ++ x :: post)) :
    (∀ c ∈ pre, c.cellId ≠ x.cellId) ∧ ∀ c ∈ post, c.cellId ≠ x.cellId := by
  have hne : ∀ {a b : CellId}, a.agrees b = false → a ≠ b := by
    rintro a b hab rfl
    rw [CellId.agrees_self] at hab
    cases hab
  refine ⟨fun c hc => hne (h.split.1 c hc), fun c hc => ?_⟩
  exact (hne (h.split.2 c hc)).symm

end CellStore

section Search

variable {L : Libosmo} {cells : CellStore} {k : CellId}

theorem cellLocationFind_position : cellLocationFind L cells k
    = FirstMatch.position (fun c : CellLocation => L.cellIdsMatch c.cellId k true)
      (fun c => L.cellIdsMatch c.cellId k false) cells := by
  unfold cellLocationFind FirstMatch.position
  cases cells.findIdx? fun c => L.cellIdsMatch c.cellId k true with
  | some i => rfl
  | none => rfl

theorem cellLocationFind_agrees (hm : L.CellIdsMatch) (hc : ∀ c ∈ cells, c.cellId.Configurable)
    (hk : k.Configurable) : cellLocationFind L cells k
      = FirstMatch.position (fun c : CellLocation => decide (c.cellId = k))
        (fun c => c.cellId.agrees k) cells := by
  rw [cellLocationFind_position]
  refine FirstMatch.position_congr (fun c hmem => ?_) (fun c hmem => ?_)
  · exact Bool.eq_iff_iff.mpr ((hm.exact _ _ (hc c hmem) hk).trans decide_eq_true_iff.symm)
  · exact Bool.eq_iff_iff.mpr (hm.loose _ _ (hc c hmem) hk)

/-- The outcomes of a search for an identifier that can be configured. -/
theorem cellLocationFind_cases (hm : L.CellIdsMatch) (hc : ∀ c ∈ cells, c.cellId.Configurable)
    (hk : k.Configurable) :
    (cellLocationFind L cells k = none ∧ ∀ c ∈ cells, c.cellId.agrees k = false) ∨
    ∃ pre x post, cells = pre ++ x :: post ∧ cellLocationFind L cells k = some pre.length ∧
      (x.cellId = k ∨ (∀ c ∈ cells, c.cellId ≠ k) ∧ x.cellId.agrees k = true) := by
  rw [cellLocationFind_agrees hm hc hk]
  cases hpos : FirstMatch.position (fun c : CellLocation => decide (c.cellId = k))
      (fun c => c.cellId.agrees k) cells with
  | none =>
    refine .inl ⟨rfl, (FirstMatch.position_none ?_).mp hpos⟩
    intro c hmem heq
    rw [of_decide_eq_true heq]
    exact CellId.agrees_self
  | some i =>
    obtain ⟨pre, x, post, hl, rfl, hx⟩ := FirstMatch.position_split hpos
    refine .inr ⟨pre, x, post, hl, rfl, ?_⟩
    rcases hx with hx | ⟨hno, hx⟩
    · exact .inl (of_decide_eq_true hx)
    · exact .inr ⟨fun c hmem => of_decide_eq_false (hno c hmem), hx⟩

/-- The position is that of the exact match in the list, or else of the first loose one. -/
theorem cellLocationFromTa_first {ta : UInt8} : cellLocationFromTa L cells k ta
    = (FirstMatch.first (fun c : CellLocation => L.cellIdsMatch c.cellId k true)
      (fun c => L.cellIdsMatch c.cellId k false) cells).map fun cell =>
        { lat := cell.lat, lon := cell.lon, unc := L.gadDecUnc (L.gadEncUnc (taToM ta * 1000)) } := by
  rw [← FirstMatch.position_first, ← cellLocationFind_position]
  unfold cellLocationFromTa
  cases cellLocationFind L cells k with
  | none => rfl
  | some i =>
    show (cells[i]?.bind fun cell => some _) = _
    cases hc : cells[i]? with
    | none => simp [hc]
    | some c => simp [hc]

end Search

section Change

variable {L : Libosmo} {cells pre post : CellStore} {k : CellId} {x : CellLocation}
  {lat lon : Int32}

theorem cellLocationSet_none (h : cellLocationFind L cells k = none) :
    cellLocationSet L cells k lat lon = cells ++ [⟨k, lat, lon⟩] := by
  simp only [cellLocationSet, cellLocationFindOrCreate, h]
  exact FirstMatch.modify_split _

theorem cellLocationSet_some
    (h : cellLocationFind L (pre ++ x :: post) k = some pre.length) :
    cellLocationSet L (pre ++ x :: post) k lat lon
      = pre ++ { x with lat := lat, lon := lon } :: post := by
  simp only [cellLocationSet, cellLocationFindOrCreate, h]
  exact FirstMatch.modify_split _

theorem cellLocationRemove_none (h : cellLocationFind L cells k = none) :
    cellLocationRemove L cells k = (-enoent, cells) := by
  simp only [cellLocationRemove, h]

theorem cellLocationRemove_some
    (h : cellLocationFind L (pre ++ x :: post) k = some pre.length) :
    cellLocationRemove L (pre ++ x :: post) k = (0, pre ++ post) := by
  simp only [cellLocationRemove, h, FirstMatch.eraseIdx_split]

theorem CellStore.WF.set (hm : L.CellIdsMatch) (h : CellStore.WF L cells) (hk : k.Named L)
    (hlat : Coord 90000000 lat) (hlon : Coord 180000000 lon) :
    CellStore.WF L (cellLocationSet L cells k lat lon) := by
  rcases cellLocationFind_cases hm h.configurable hk.configurable with
    ⟨hf, hno⟩ | ⟨pre, x, post, rfl, hf, -⟩
  · rw [cellLocationSet_none hf]
    refine ⟨fun c hc => ?_, ?_⟩
    · rcases List.mem_append.mp hc with hc | hc
      · exact h.valid c hc
      · rw [List.mem_singleton.mp hc]
        exact ⟨hk, hlat, hlon⟩
    · refine List.pairwise_append.mpr ⟨h.apart, List.pairwise_singleton _ _, fun c hc b hb => ?_⟩
      rw [List.mem_singleton.mp hb]
      exact hno c hc
  · rw [cellLocationSet_some hf]
    refine ⟨fun c hc => ?_, ?_⟩
    · rcases List.mem_append.mp hc with hc | hc
      · exact h.valid c (List.mem_append_left _ hc)
      · rcases List.mem_cons.mp hc with rfl | hc
        · have hx := h.valid x (List.mem_append_right _ List.mem_cons_self)
          exact ⟨hx.named, hlat, hlon⟩
        · exact h.valid c (List.mem_append_right _ (List.mem_cons_of_mem _ hc))
    · have hids : (pre ++ { x with lat := lat, lon := lon } :: post).map CellLocation.cellId
          = (pre ++ x :: post).map CellLocation.cellId := by simp
      have hap : ((pre ++ x :: post).map CellLocation.cellId).Pairwise
          fun a b => a.agrees b = false := List.pairwise_map.mpr h.apart
      rw [← hids] at hap
      exact List.pairwise_map.mp hap

theorem CellStore.WF.remove (h : CellStore.WF L cells) :
    CellStore.WF L (cellLocationRemove L cells k).2 := by
  unfold cellLocationRemove
  split
  · exact h
  · exact h.sublist (List.eraseIdx_sublist _ _)

end Change

/-- The position that a command gives, where both coordinates are let through. -/
def parsePos (L : Libosmo) (lat lon : String) : Option (Int32 × Int32) :=
  match vtyParseCoord L 90000000 lat, vtyParseCoord L 180000000 lon with
  | some lat, some lon => some (lat, lon)
  | _, _ => none

/-- A new position for a cell, or its removal. -/
abbrev Change := CellId × Option (Int32 × Int32)

/-- What a command asks of the store. -/
def VtyCmd.change (L : Libosmo) : VtyCmd → Option Change
  | .cells => none
  | .lacCi lac ci lat lon =>
      (parsePos L lat lon).map fun pos => (vtyParseLacCi lac ci, some pos)
  | .noLacCi lac ci => some (vtyParseLacCi lac ci, none)
  | .cgi mcc mnc lac ci lat lon =>
      (vtyParseCgi L mcc mnc lac ci).bind fun k => (parsePos L lat lon).map fun pos => (k, some pos)
  | .noCgi mcc mnc lac ci => (vtyParseCgi L mcc mnc lac ci).map fun k => (k, none)

theorem vtyParseCgi_named {L : Libosmo} {mcc mnc lac ci : String} {k : CellId}
    (h : vtyParseCgi L mcc mnc lac ci = some k) : k.Named L := by
  unfold vtyParseCgi at h
  obtain ⟨m, hm, h⟩ := Option.bind_eq_some_iff.mp h
  obtain ⟨⟨n, d⟩, hn, h⟩ := Option.bind_eq_some_iff.mp h
  cases h
  exact ⟨⟨mcc, hm⟩, mnc, hn⟩

/-- A coordinate within the bounds is not changed by the assignment to 32 bits. -/
theorem vtyParseCoord_value {L : Libosmo} {bound : Int64} {str : String} {v : Int32}
    (hb : bound = 90000000 ∨ bound = 180000000) (h : vtyParseCoord L bound str = some v) :
    ∃ val, L.floatStrToInt str 6 = some val ∧ v.toInt = val.toInt ∧ Coord bound v := by
  unfold vtyParseCoord at h
  split at h
  · cases h
  · rename_i val hval
    split at h
    · cases h
    · rename_i hin
      cases h
      rw [Bool.or_eq_true, decide_eq_true_iff, decide_eq_true_iff, not_or, Int64.not_lt,
        Int64.not_lt, Int64.le_iff_toInt_le, Int64.le_iff_toInt_le] at hin
      have hneg : (-bound).toInt = -bound.toInt := by
        rcases hb with rfl | rfl <;> decide
      have hmax : bound.toInt ≤ 180000000 := by
        rcases hb with rfl | rfl <;> decide
      rw [hneg] at hin
      have h32 : val.toInt32.toInt = val.toInt := by
        rw [Int64.toInt_toInt32]
        exact Int.bmod_eq_of_le (by omega) (by omega)
      refine ⟨val, hval, h32, ?_⟩
      rwa [Coord, h32]

/-- The store after a change, and whether the command succeeds. -/
def changeCells (L : Libosmo) (cells : CellStore) : Change → CmdResult × CellStore
  | (k, some (lat, lon)) => (.success, cellLocationSet L cells k lat lon)
  | (k, none) =>
      (if (cellLocationRemove L cells k).1 ≠ 0 then .warning else .success,
        (cellLocationRemove L cells k).2)

structure Change.Valid (L : Libosmo) (ch : Change) : Prop where
  named : ch.1.Named L
  coords : ∀ lat lon, ch.2 = some (lat, lon) → Coord 90000000 lat ∧ Coord 180000000 lon

section Commands

variable {L : Libosmo} {cells : CellStore} {cmd : VtyCmd} {k : CellId} {lat lon : Int32}

theorem parsePos_coords {lats lons : String} (h : parsePos L lats lons = some (lat, lon)) :
    Coord 90000000 lat ∧ Coord 180000000 lon := by
  unfold parsePos at h
  split at h
  · rename_i hlat hlon
    cases h
    obtain ⟨-, -, -, hlat⟩ := vtyParseCoord_value (.inl rfl) hlat
    obtain ⟨-, -, -, hlon⟩ := vtyParseCoord_value (.inr rfl) hlon
    exact ⟨hlat, hlon⟩
  · cases h

theorem vtyParseLocation_pos (L : Libosmo) (cells : CellStore) (k : CellId) (lats lons : String) :
    vtyParseLocation L cells k lats lons = match parsePos L lats lons with
      | none => (.warning, cells)
      | some pos => changeCells L cells (k, some pos) := by
  unfold vtyParseLocation parsePos
  cases vtyParseCoord L 90000000 lats with
  | none => rfl
  | some lat => cases vtyParseCoord L 180000000 lons <;> rfl

/-- What commands ask for is within the bounds. -/
theorem VtyCmd.change_valid {ch : Change} (h : cmd.change L = some ch) : ch.Valid L := by
  cases cmd with
  | cells => cases h
  | lacCi lac ci lats lons =>
    obtain ⟨⟨lat, lon⟩, hpos, rfl⟩ := Option.map_eq_some_iff.mp h
    refine ⟨trivial, fun lat' lon' heq => ?_⟩
    cases heq
    exact parsePos_coords hpos
  | noLacCi lac ci =>
    cases h
    exact ⟨trivial, nofun⟩
  | cgi mcc mnc lac ci lats lons =>
    obtain ⟨k, hk, h⟩ := Option.bind_eq_some_iff.mp h
    obtain ⟨⟨lat, lon⟩, hpos, rfl⟩ := Option.map_eq_some_iff.mp h
    refine ⟨vtyParseCgi_named hk, fun lat' lon' heq => ?_⟩
    cases heq
    exact parsePos_coords hpos
  | noCgi mcc mnc lac ci =>
    obtain ⟨k, hk, rfl⟩ := Option.map_eq_some_iff.mp h
    exact ⟨vtyParseCgi_named hk, nofun⟩

/-- A command does what it asks for; one that asks for nothing changes nothing. -/
theorem vtyCommand_change (L : Libosmo) (cells : CellStore) (cmd : VtyCmd) :
    vtyCommand L cells cmd = match cmd.change L with
      | none => (if cmd = .cells then .success else .warning, cells)
      | some ch => changeCells L cells ch := by
  cases cmd with
  | cells => rfl
  | lacCi lac ci lats lons =>
    simp only [vtyCommand, cfgCellsLacCi, vtyParseLocation_pos, VtyCmd.change]
    cases parsePos L lats lons <;> rfl
  | noLacCi lac ci =>
    simp only [vtyCommand, cfgCellsNoLacCi, VtyCmd.change, changeCells]
    split <;> rfl
  | cgi mcc mnc lac ci lats lons =>
    simp only [vtyCommand, cfgCellsCgi, vtyParseLocation_pos, VtyCmd.change]
    cases vtyParseCgi L mcc mnc lac ci with
    | none => rfl
    | some k => cases parsePos L lats lons <;> rfl
  | noCgi mcc mnc lac ci =>
    simp only [vtyCommand, cfgCellsNoCgi, VtyCmd.change]
    cases vtyParseCgi L mcc mnc lac ci with
    | none => rfl
    | some k =>
      simp only [Option.map_some, changeCells]
      split <;> rfl

theorem CellStore.WF.change {ch : Change} (hm : L.CellIdsMatch) (h : CellStore.WF L cells)
    (hch : ch.Valid L) : CellStore.WF L (changeCells L cells ch).2 := by
  obtain ⟨k, pos⟩ := ch
  cases pos with
  | none => exact h.remove
  | some pos =>
    obtain ⟨lat, lon⟩ := pos
    obtain ⟨hlat, hlon⟩ := hch.coords lat lon rfl
    exact h.set hm hch.named hlat hlon

theorem CellStore.WF.vtyCommand (hm : L.CellIdsMatch) (h : CellStore.WF L cells) (cmd : VtyCmd) :
    CellStore.WF L (vtyCommand L cells cmd).2 := by
  rw [vtyCommand_change]
  cases hch : cmd.change L with
  | none => exact h
  | some ch => exact h.change hm (VtyCmd.change_valid hch)

theorem CellStore.WF.vtyCommands (hm : L.CellIdsMatch) (h : CellStore.WF L cells)
    (cmds : List VtyCmd) : CellStore.WF L (vtyCommands L cells cmds) := by
  unfold OsmoSmlc.vtyCommands
  induction cmds generalizing cells with
  | nil => exact h
  | cons cmd cmds ih => exact ih (h.vtyCommand hm cmd)

/-- A failed command leaves the store as it is. -/
theorem vtyCommand_failed (h : (vtyCommand L cells cmd).1 ≠ .success) :
    (vtyCommand L cells cmd).2 = cells := by
  rw [vtyCommand_change] at h ⊢
  cases hch : cmd.change L with
  | none => rfl
  | some ch =>
    rw [hch] at h
    obtain ⟨k, pos⟩ := ch
    cases pos with
    | some pos => exact absurd rfl h
    | none =>
      show (cellLocationRemove L cells k).2 = cells
      have hrc : (cellLocationRemove L cells k).1 ≠ 0 := fun hz => h (if_neg (not_not.mpr hz))
      unfold cellLocationRemove at hrc ⊢
      split
      · rfl
      · rename_i i hf
        rw [hf] at hrc
        exact absurd rfl hrc

end Commands
end OsmoSmlc
