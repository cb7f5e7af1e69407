import OsmoSmlc.Cells.Store
import OsmoSmlc.Model.Sample

/-! The printed configuration of the cell positions, read back by the commands. -/
namespace OsmoSmlc
open Osmo

/-- The library functions read what they print: coordinates with six digits after the point,
and the codes that were themselves read from a string. -/
structure Libosmo.ReadsPrinted (L : Libosmo) : Prop where
  float : ∀ v : Int64, -180000000 ≤ v.toInt → v.toInt ≤ 180000000 →
    L.floatStrToInt (L.intToFloatStr v 6) 6 = some v
  mcc : ∀ str mcc, L.mccFromStr str = some mcc → L.mccFromStr (L.mccName mcc) = some mcc
  mnc : ∀ str mnc mnc3Digits, L.mncFromStr str = some (mnc, mnc3Digits) →
    L.mncFromStr (L.mncName mnc mnc3Digits) = some (mnc, mnc3Digits)

section Numbers

theorem not_isSpace_of_isDigit {c : Char} (h : c.isDigit = true) : isSpace c = false := by
  have hge : 48 ≤ c.toNat := by
    simp only [Char.isDigit, Bool.and_eq_true, decide_eq_true_eq] at h
    exact UInt32.le_iff_toNat_le.mp h.1
  have hsp : c ≠ ' ' := by
    rintro rfl
    exact absurd hge (by decide)
  have hcr : ¬c ≤ '\r' := by
    intro hle
    have hle' : c.toNat ≤ 13 := UInt32.le_iff_toNat_le.mp hle
    omega
  simp [isSpace, hsp, hcr]

theorem leadingDigits_ofDigitChars {cs : List Char} (h : ∀ c ∈ cs, c.isDigit = true) (n : Nat) :
    leadingDigits n cs = Nat.ofDigitChars 10 cs n := by
  induction cs generalizing n with
  | nil => rfl
  | cons c cs ih =>
    have hc := h c List.mem_cons_self
    rw [leadingDigits, if_pos hc, ih fun d hd => h d (List.mem_cons_of_mem _ hd),
      Nat.ofDigitChars_cons]
    rfl

theorem atoi_digits {cs : List Char} (h : ∀ c ∈ cs, c.isDigit = true) (hne : cs ≠ []) :
    atoi (String.ofList cs) = Nat.ofDigitChars 10 cs 0 := by
  cases cs with
  | nil => exact absurd rfl hne
  | cons c cs =>
    have hc := h c List.mem_cons_self
    unfold atoi
    rw [String.toList_ofList, List.dropWhile_cons, not_isSpace_of_isDigit hc,
      if_neg Bool.false_ne_true]
    split
    · rename_i heq
      cases (List.cons.inj heq).1
      cases hc
    · rename_i heq
      cases (List.cons.inj heq).1
      cases hc
    · rw [leadingDigits_ofDigitChars h]

/-- A printed number is read back. -/
theorem atou16_toString (n : UInt16) : atou16 (toString n.toNat) = n := by
  have ha : atoi (String.ofList (Nat.toDigits 10 n.toNat)) = n.toNat := by
    rw [atoi_digits (fun c => Decimal.isDigit_toDigits) Nat.toDigits_ne_nil,
      Nat.ofDigitChars_ten_toDigits]
  have hlt := n.toNat_lt
  rw [atou16, Nat.toString_eq_ofList_toDigits, ha]
  apply UInt16.toNat_inj.mp
  simp only [UInt16.ofInt, UInt16.toNat_ofNat']
  omega

end Numbers

section Replay

variable {L : Libosmo} {cells pre post : CellStore} {c : CellLocation}

/-- The command that the line of an entry is read as. -/
def CellLocation.command (L : Libosmo) (c : CellLocation) : VtyCmd :=
  match c.cellId with
  | .lacAndCi lac ci => .lacCi (toString lac.toNat) (toString ci.toNat)
      (L.intToFloatStr c.lat.toInt64 6) (L.intToFloatStr c.lon.toInt64 6)
  | .wholeGlobal cgi => .cgi (L.mccName cgi.lai.plmn.mcc)
      (L.mncName cgi.lai.plmn.mnc cgi.lai.plmn.mnc3Digits) (toString cgi.lai.lac.toNat)
      (toString cgi.cellIdentity.toNat) (L.intToFloatStr c.lat.toInt64 6)
      (L.intToFloatStr c.lon.toInt64 6)
  | _ => .cells

theorem CellLocation.command_line (hc : c.cellId.Configurable) :
    vtyParse (configWriteCellId L c.cellId ++ ["lat", L.intToFloatStr c.lat.toInt64 6,
      "lon", L.intToFloatStr c.lon.toInt64 6]) = some (c.command L) := by
  unfold CellLocation.command
  cases hid : c.cellId with
  | wholeGlobal cgi => rfl
  | lacAndCi lac ci => rfl
  | _ =>
    rw [hid] at hc
    exact absurd hc id

theorem vtyParseCoord_printed (hr : L.ReadsPrinted) {bound : Int64} {v : Int32}
    (hb : bound = 90000000 ∨ bound = 180000000) (hv : Coord bound v) :
    vtyParseCoord L bound (L.intToFloatStr v.toInt64 6) = some v := by
  have hmax : bound.toInt ≤ 180000000 := by
    rcases hb with rfl | rfl <;> decide
  have hneg : (-bound).toInt = -bound.toInt := by
    rcases hb with rfl | rfl <;> decide
  obtain ⟨hlow, hhigh⟩ := hv
  have hfloat := hr.float v.toInt64 (by rw [Int32.toInt_toInt64]; omega)
    (by rw [Int32.toInt_toInt64]; omega)
  have hin : ¬(v.toInt64 < -bound || v.toInt64 > bound) = true := by
    rw [Bool.or_eq_true, decide_eq_true_iff, decide_eq_true_iff, not_or, Int64.not_lt,
      Int64.not_lt, Int64.le_iff_toInt_le, Int64.le_iff_toInt_le, hneg, Int32.toInt_toInt64]
    exact ⟨hlow, hhigh⟩
  simp only [vtyParseCoord, hfloat, if_neg hin, Int32.toInt32_toInt64]

theorem CellLocation.command_change (hr : L.ReadsPrinted) (hv : c.Valid L) :
    (c.command L).change L = some (c.cellId, some (c.lat, c.lon)) := by
  have hpos : parsePos L (L.intToFloatStr c.lat.toInt64 6) (L.intToFloatStr c.lon.toInt64 6)
      = some (c.lat, c.lon) := by
    simp only [parsePos, vtyParseCoord_printed hr (.inl rfl) hv.lat,
      vtyParseCoord_printed hr (.inr rfl) hv.lon]
  have hn := hv.named
  unfold CellLocation.command
  cases hid : c.cellId with
  | wholeGlobal cgi =>
    rw [hid] at hn
    obtain ⟨⟨mcc, hmcc⟩, mnc, hmnc⟩ := hn
    simp only [VtyCmd.change, vtyParseCgi, hr.mcc _ _ hmcc, hr.mnc _ _ _ hmnc, hpos,
      atou16_toString]
    rfl
  | lacAndCi lac ci =>
    simp only [VtyCmd.change, hpos, vtyParseLacCi, atou16_toString]
    rfl
  | _ =>
    rw [hid] at hn
    exact absurd hn id

theorem vtyCommands_cons (cmd : VtyCmd) (cmds : List VtyCmd) :
    vtyCommands L cells (cmd :: cmds) = vtyCommands L (vtyCommand L cells cmd).2 cmds := rfl

theorem CellLocation.command_set (hr : L.ReadsPrinted) (hv : c.Valid L) :
    (vtyCommand L cells (c.command L)).2 = cellLocationSet L cells c.cellId c.lat c.lon := by
  rw [vtyCommand_change, CellLocation.command_change hr hv]
  rfl

/-- The entries are appended one after the other, as none matches one before it. -/
theorem vtyCommands_replay (hm : L.CellIdsMatch) (hr : L.ReadsPrinted)
    (h : CellStore.WF L (pre ++ post)) :
    vtyCommands L pre (post.map (CellLocation.command L)) = pre ++ post := by
  induction post generalizing pre with
  | nil => exact (List.append_nil pre).symm
  | cons c post ih =>
    have hv := h.valid c (by simp)
    have hpre : CellStore.WF L pre := h.sublist (List.sublist_append_left _ _)
    have hf : cellLocationFind L pre c.cellId = none := by
      rcases cellLocationFind_cases hm hpre.configurable hv.named.configurable with
        ⟨hf, -⟩ | ⟨pre', x, post', rfl, -, hx⟩
      · exact hf
      · have hno := h.split.1 x (by simp)
        rcases hx with hx | ⟨-, hx⟩
        · rw [hx, CellId.agrees_self] at hno
          cases hno
        · rw [hx] at hno
          cases hno
    rw [List.map_cons, vtyCommands_cons, CellLocation.command_set hr hv, cellLocationSet_none hf]
    have h' : CellStore.WF L ((pre ++ [c]) ++ post) := by rwa [← List.append_cons]
    exact (ih h').trans (List.append_cons pre c post).symm

/-- Setting the position that an entry has changes nothing. -/
theorem vtyCommands_again (hm : L.CellIdsMatch) (hr : L.ReadsPrinted) (h : CellStore.WF L cells)
    {again : CellStore} (hsub : ∀ c ∈ again, c ∈ cells) :
    vtyCommands L cells (again.map (CellLocation.command L)) = cells := by
  induction again with
  | nil => rfl
  | cons c again ih =>
    have hc := hsub c List.mem_cons_self
    have hv := h.valid c hc
    have hset : cellLocationSet L cells c.cellId c.lat c.lon = cells := by
      rcases cellLocationFind_cases hm h.configurable hv.named.configurable with
        ⟨-, hno⟩ | ⟨pre, x, post, rfl, hf, hx⟩
      · have hself := hno c hc
        rw [CellId.agrees_self] at hself
        cases hself
      · rcases hx with hx | ⟨hno, -⟩
        · have heq : x = c := h.unique (by simp) hc (hx ▸ CellId.agrees_self)
          rw [cellLocationSet_some hf, heq]
        · exact absurd rfl (hno c hc)
    rw [List.map_cons, vtyCommands_cons, CellLocation.command_set hr hv, hset]
    exact ih fun d hd => hsub d (List.mem_cons_of_mem _ hd)

theorem configWriteCells_parse (h : CellStore.WF L cells) :
    (configWriteCells L cells).mapM vtyParse = some
      (if cells.isEmpty then [] else .cells :: cells.map (CellLocation.command L)) := by
  have hlines : ∀ cs : CellStore, (∀ c ∈ cs, c ∈ cells) →
      (cs.map fun cell => configWriteCellId L cell.cellId ++ ["lat",
        L.intToFloatStr cell.lat.toInt64 6, "lon", L.intToFloatStr cell.lon.toInt64 6]).mapM vtyParse
      = some (cs.map (CellLocation.command L)) := by
    intro cs hcs
    induction cs with
    | nil => rfl
    | cons c cs ih =>
      have hc := CellLocation.command_line (L := L) (h.configurable c (hcs c List.mem_cons_self))
      rw [List.map_cons, List.mapM_cons, hc, ih fun d hd => hcs d (List.mem_cons_of_mem _ hd)]
      rfl
  unfold configWriteCells
  split
  · rfl
  · rw [List.mapM_cons, hlines cells fun c hc => hc]
    rfl

end Replay

/-- The printed configuration is read back as commands that build the same store from
nothing, and leave it as it is where it is there already. -/
theorem configWriteCells_replay (L : Libosmo) (hm : L.CellIdsMatch) (hr : L.ReadsPrinted)
    (cmds : List VtyCmd) :
    let cells := vtyCommands L [] cmds
    ∃ out, (configWriteCells L cells).mapM vtyParse = some out ∧ vtyCommands L [] out = cells ∧
      vtyCommands L cells out = cells := by
  intro cells
  have h : CellStore.WF L cells := CellStore.nil_wf.vtyCommands hm cmds
  refine ⟨_, configWriteCells_parse h, ?_, ?_⟩
  · split
    · rename_i he
      rw [List.isEmpty_iff.mp he]
      rfl
    · have hback : vtyCommands L [] (cells.map (CellLocation.command L)) = [] ++ cells :=
        vtyCommands_replay hm hr h
      exact hback
  · split
    · rfl
    · exact vtyCommands_again hm hr h fun c hc => hc

/-- The library of the sample reads what it prints. -/
theorem Sample.libosmo_readsPrinted : Sample.libosmo.ReadsPrinted where
  float v _ _ := by
    show ((Decimal.readFixed 6 (String.ofList (Decimal.print 6 v.toInt)).toList).map Int64.ofInt)
      = some v
    rw [String.toList_ofList, Decimal.readFixed_print (by decide), Option.map_some,
      Int64.ofInt_toInt]
  mcc str mcc h := by
    obtain ⟨m, hm, rfl⟩ := Option.map_eq_some_iff.mp h
    have hall : ∀ m ∈ Sample.mccs, Sample.libosmo.mccFromStr (Sample.libosmo.mccName m.1)
        = some m.1 := by decide +kernel
    exact hall m (List.mem_of_find?_eq_some hm)
  mnc str mnc mnc3Digits h := by
    obtain ⟨m, hm, heq⟩ := Option.map_eq_some_iff.mp h
    have hall : ∀ m ∈ Sample.mncs,
        Sample.libosmo.mncFromStr (Sample.libosmo.mncName m.1 m.2.1) = some (m.1, m.2.1) := by
      decide +kernel
    cases heq
    exact hall m (List.mem_of_find?_eq_some hm)

/-- Two cells, one of them with a three-digit network code. -/
theorem configWriteCells_replay_two :
    let cmds : List VtyCmd := [.lacCi "23" "42" "1.5" "-2.5", .cgi "262" "042" "23" "43" "3" "4"]
    let cells := vtyCommands Sample.libosmo [] cmds
    (∃ out, (configWriteCells Sample.libosmo cells).mapM vtyParse = some out ∧
      vtyCommands Sample.libosmo [] out = cells ∧ vtyCommands Sample.libosmo cells out = cells) ∧
    cells.length = 2 :=
  ⟨configWriteCells_replay Sample.libosmo Sample.libosmo_cellIdsMatch Sample.libosmo_readsPrinted _,
    by decide +kernel⟩

end OsmoSmlc
