import Mathlib.Data.List.Induction
import OsmoSmlc.Cells.Store

/-! The store of cell positions as a map from identifiers to positions. A command acts on the
map as it should where the search of the store meets nothing but an exact match. -/
namespace OsmoSmlc
open Osmo

/-- What the store is for: the position of each identifier. -/
abbrev CellMap := CellId → Option (Int32 × Int32)

def CellMap.apply (m : CellMap) (ch : Change) : CellMap :=
  fun k => if k = ch.1 then ch.2 else m k

/-- The positions that were configured last by a sequence of commands. -/
def configured (L : Libosmo) (cmds : List VtyCmd) : CellMap :=
  cmds.foldl (fun m cmd =>
    match cmd.change L with
    | some ch => m.apply ch
    | none => m) fun _ => none

def mapOf (cells : CellStore) : CellMap := fun k =>
  (cells.find? fun c => c.cellId = k).map fun c => (c.lat, c.lon)

/-- The identifier has an entry, or no entry matches it at all. -/
def Clear (cells : CellStore) (k : CellId) : Prop :=
  (∃ c ∈ cells, c.cellId = k) ∨ ∀ c ∈ cells, c.cellId.agrees k = false

/-- Setting a position leaves an entry for exactly this identifier, and all others alone. -/
structure SetsExactly (L : Libosmo) (cells : CellStore) (k : CellId) (lat lon : Int32) : Prop where
  entry : (⟨k, lat, lon⟩ : CellLocation) ∈ cellLocationSet L cells k lat lon
  others : (cellLocationSet L cells k lat lon).filter (fun c => c.cellId ≠ k)
    = cells.filter fun c => c.cellId ≠ k

/-- Removing an identifier removes its entry, and fails where there is none. -/
structure RemovesExactly (L : Libosmo) (cells : CellStore) (k : CellId) : Prop where
  success : (cellLocationRemove L cells k).1 = 0 ↔ ∃ c ∈ cells, c.cellId = k
  removed : (cellLocationRemove L cells k).1 = 0 →
    (cellLocationRemove L cells k).2 = cells.filter fun c => c.cellId ≠ k
  failed : (cellLocationRemove L cells k).1 ≠ 0 → cellLocationRemove L cells k = (-enoent, cells)

/-- Every command of the session that changes the store is for a clear identifier. -/
def ClearSession (L : Libosmo) (cmds : List VtyCmd) : Prop :=
  ∀ before cmd after, cmds = before ++ cmd :: after → ∀ ch, cmd.change L = some ch →
    Clear (vtyCommands L [] before) ch.1

section Exact

variable {L : Libosmo} {cells cells' pre post : CellStore} {k : CellId} {x : CellLocation}
  {lat lon : Int32}

theorem filter_split_self (hx : x.cellId = k) :
    (pre ++ x :: post).filter (fun c => c.cellId ≠ k) = (pre ++ post).filter fun c => c.cellId ≠ k := by
  simp [hx]

theorem set_exactly_iff (hm : L.CellIdsMatch) (h : CellStore.WF L cells) (hk : k.Configurable) :
    SetsExactly L cells k lat lon ↔ Clear cells k := by
  rcases cellLocationFind_cases hm h.configurable hk with
    ⟨hf, hno⟩ | ⟨pre, x, post, rfl, hf, hx⟩
  · refine ⟨fun _ => .inr hno, fun _ => ⟨?_, ?_⟩⟩
    · rw [cellLocationSet_none hf]
      simp
    · rw [cellLocationSet_none hf]
      simp
  · have hset : cellLocationSet L (pre ++ x :: post) k lat lon = _ := cellLocationSet_some hf
    rcases hx with hx | ⟨hne, hag⟩
    · refine ⟨fun _ => .inl ⟨x, by simp, hx⟩, fun _ => ⟨?_, ?_⟩⟩
      · rw [hset, ← hx]
        simp
      · have hx' : ({ x with lat := lat, lon := lon } : CellLocation).cellId = k := hx
        rw [hset, filter_split_self hx', filter_split_self hx]
    · constructor
      · rintro ⟨hentry, -⟩
        -- The identifiers of the entries have not changed.
        rw [hset] at hentry
        have hid : k ∈ (pre ++ x :: post).map CellLocation.cellId := by
          have hmem := List.mem_map_of_mem (f := CellLocation.cellId) hentry
          simpa using hmem
        obtain ⟨c, hc, rfl⟩ := List.mem_map.mp hid
        exact absurd rfl (hne c hc)
      · rintro (⟨c, hc, rfl⟩ | hno)
        · exact absurd rfl (hne c hc)
        · have hxk := hno x (by simp)
          rw [hag] at hxk
          cases hxk

theorem remove_exactly_iff (hm : L.CellIdsMatch) (h : CellStore.WF L cells) (hk : k.Configurable) :
    RemovesExactly L cells k ↔ Clear cells k := by
  rcases cellLocationFind_cases hm h.configurable hk with
    ⟨hf, hno⟩ | ⟨pre, x, post, rfl, hf, hx⟩
  · have hnone : ¬∃ c ∈ cells, c.cellId = k := by
      rintro ⟨c, hc, rfl⟩
      have hself := hno c hc
      rw [CellId.agrees_self] at hself
      cases hself
    refine ⟨fun _ => .inr hno, fun _ => ?_⟩
    have hr := cellLocationRemove_none hf
    have hrc : (cellLocationRemove L cells k).1 ≠ 0 := by
      rw [hr]
      show -enoent ≠ 0
      decide
    exact ⟨⟨fun h0 => absurd h0 hrc, fun h0 => absurd h0 hnone⟩, fun h0 => absurd h0 hrc,
      fun _ => hr⟩
  · have hr := cellLocationRemove_some hf
    have hrc : (cellLocationRemove L (pre ++ x :: post) k).1 = 0 := by rw [hr]
    rcases hx with hx | ⟨hne, hag⟩
    · have hex : ∃ c ∈ pre ++ x :: post, c.cellId = k := ⟨x, by simp, hx⟩
      refine ⟨fun _ => .inl hex, fun _ => ⟨⟨fun _ => hex, fun _ => hrc⟩, fun _ => ?_,
        fun h0 => absurd hrc h0⟩⟩
      rw [hr, filter_split_self hx]
      refine (List.filter_eq_self.mpr fun c hc => ?_).symm
      rcases List.mem_append.mp hc with hc | hc
      · exact decide_eq_true (hx ▸ h.split_ne.1 c hc)
      · exact decide_eq_true (hx ▸ h.split_ne.2 c hc)
    · constructor
      · intro hp
        obtain ⟨c, hc, rfl⟩ := hp.success.mp hrc
        exact absurd rfl (hne c hc)
      · rintro (⟨c, hc, rfl⟩ | hno)
        · exact absurd rfl (hne c hc)
        · have hxk := hno x (by simp)
          rw [hag] at hxk
          cases hxk

end Exact

section Refinement

variable {L : Libosmo} {cells cells' : CellStore} {k k' : CellId} {c : CellLocation}

theorem mapOf_mem (h : CellStore.WF L cells) (hc : c ∈ cells) :
    cells.find? (fun d => d.cellId = c.cellId) = some c := by
  cases hf : cells.find? fun d => d.cellId = c.cellId with
  | none =>
    have hno := List.find?_eq_none.mp hf c hc
    simp at hno
  | some d =>
    have hd : d.cellId = c.cellId := by simpa using List.find?_some hf
    rw [h.unique (List.mem_of_find?_eq_some hf) hc (hd ▸ CellId.agrees_self)]

theorem mapOf_other (hf : cells'.filter (fun c => c.cellId ≠ k) = cells.filter fun c => c.cellId ≠ k)
    (hk : k' ≠ k) : mapOf cells' k' = mapOf cells k' := by
  have hfind : ∀ l : CellStore, l.find? (fun c => c.cellId = k')
      = (l.filter fun c => c.cellId ≠ k).find? fun c => c.cellId = k' := by
    intro l
    rw [List.find?_filter]
    refine List.find?_congr fun c _ => ?_
    by_cases hc : c.cellId = k'
    · simp [hc, hk]
    · simp [hc]
  unfold mapOf
  rw [hfind cells', hf, ← hfind cells]

/-- A change for a clear identifier is a change of the map. -/
theorem changeCells_refines (hm : L.CellIdsMatch) (h : CellStore.WF L cells) {ch : Change}
    (hv : ch.Valid L) (hclear : Clear cells ch.1) :
    mapOf (changeCells L cells ch).2 = (mapOf cells).apply ch := by
  have hwf := h.change hm hv
  obtain ⟨k, pos⟩ := ch
  have hk : k.Configurable := hv.named.configurable
  funext k'
  unfold CellMap.apply
  cases pos with
  | some pos =>
    obtain ⟨lat, lon⟩ := pos
    have hp : SetsExactly L cells k lat lon := (set_exactly_iff hm h hk).mpr hclear
    by_cases hkk : k' = k
    · subst hkk
      rw [if_pos rfl]
      unfold mapOf
      rw [mapOf_mem hwf hp.entry]
      rfl
    · rw [if_neg hkk]
      exact mapOf_other hp.others hkk
  | none =>
    have hp : RemovesExactly L cells k := (remove_exactly_iff hm h hk).mpr hclear
    have hcells : (cellLocationRemove L cells k).2 = cells.filter fun c => c.cellId ≠ k := by
      by_cases hrc : (cellLocationRemove L cells k).1 = 0
      · exact hp.removed hrc
      · rw [hp.failed hrc]
        refine (List.filter_eq_self.mpr fun c hc => ?_).symm
        have hne : c.cellId ≠ k := fun heq => hrc (hp.success.mpr ⟨c, hc, heq⟩)
        simpa using hne
    show mapOf (cellLocationRemove L cells k).2 k' = _
    by_cases hkk : k' = k
    · subst hkk
      rw [if_pos rfl, hcells]
      unfold mapOf
      rw [List.find?_eq_none.mpr]
      · rfl
      · intro c hc
        simpa using (List.mem_filter.mp hc).2
    · rw [if_neg hkk]
      refine mapOf_other ?_ hkk
      rw [hcells, List.filter_filter]
      exact List.filter_congr fun c _ => by simp

theorem clearSession_nil : ClearSession L [] := by
  intro before cmd after h
  cases before <;> cases h

theorem clearSession_concat {cmds : List VtyCmd} {cmd : VtyCmd} :
    ClearSession L (cmds ++ [cmd]) ↔ ClearSession L cmds ∧
      ∀ ch, cmd.change L = some ch → Clear (vtyCommands L [] cmds) ch.1 := by
  constructor
  · intro h
    refine ⟨?_, h cmds cmd [] rfl⟩
    rintro before cmd' after rfl ch hch
    exact h before cmd' (after ++ [cmd]) (by simp) ch hch
  · rintro ⟨h, hcmd⟩ before cmd' after heq ch hch
    induction after using List.reverseRecOn with
    | nil =>
      obtain ⟨rfl, hc⟩ := List.append_inj' heq rfl
      cases hc
      exact hcmd ch hch
    | append_singleton after last _ =>
      rw [← List.cons_append, ← List.append_assoc] at heq
      obtain ⟨rfl, -⟩ := List.append_inj' heq rfl
      exact h before cmd' after rfl ch hch

/-- After a session of clear commands the store is the map that was configured. -/
theorem vtyCommands_refines (hm : L.CellIdsMatch) {cmds : List VtyCmd}
    (h : ClearSession L cmds) : mapOf (vtyCommands L [] cmds) = configured L cmds := by
  induction cmds using List.reverseRecOn with
  | nil => rfl
  | append_singleton cmds cmd ih =>
    obtain ⟨hbefore, hcmd⟩ := clearSession_concat.mp h
    have hwf : CellStore.WF L (vtyCommands L [] cmds) := CellStore.nil_wf.vtyCommands hm cmds
    have hstep : vtyCommands L [] (cmds ++ [cmd])
        = (vtyCommand L (vtyCommands L [] cmds) cmd).2 := by
      simp [vtyCommands]
    have hconf : configured L (cmds ++ [cmd]) = match cmd.change L with
        | some ch => (configured L cmds).apply ch
        | none => configured L cmds := by
      simp [configured]
    rw [hstep, hconf, vtyCommand_change]
    cases hch : cmd.change L with
    | none => exact ih hbefore
    | some ch =>
      rw [← ih hbefore]
      exact changeCells_refines hm hwf (VtyCmd.change_valid hch) (hcmd ch hch)

/-- An identifier that has an entry is looked up there. -/
theorem cellLocationFromTa_mapOf (hm : L.CellIdsMatch) (h : CellStore.WF L cells)
    {lat lon : Int32} (hk : mapOf cells k = some (lat, lon)) (ta : UInt8) :
    cellLocationFromTa L cells k ta
      = some ⟨lat, lon, L.gadDecUnc (L.gadEncUnc (taToM ta * 1000))⟩ := by
  obtain ⟨c, hf, hpos⟩ := Option.map_eq_some_iff.mp hk
  have hid : c.cellId = k := by simpa using List.find?_some hf
  have hc := List.mem_of_find?_eq_some hf
  have hkc : k.Configurable := hid ▸ h.configurable c hc
  have hexact : cells.find? (fun c => L.cellIdsMatch c.cellId k true) = some c := by
    rw [← hf]
    refine List.find?_congr fun d hd => ?_
    exact Bool.eq_iff_iff.mpr
      ((hm.exact _ _ (h.configurable d hd) hkc).trans decide_eq_true_iff.symm)
  rw [cellLocationFromTa_first, FirstMatch.first, hexact]
  cases hpos
  rfl

end Refinement
end OsmoSmlc
