import OsmoSmlc.Model.World

/-! The configured cell positions of `cell_locations.c`, the VTY commands that
change them and the lines that `show running-config` prints for them. -/
namespace OsmoSmlc
open Osmo

abbrev CellStore := List CellLocation

variable (L : Libosmo)

def taToM (ta : UInt8) : UInt32 := ta.toUInt32 * 550

/-- Follows the list twice, for an exact and then for any match; yields a list position. -/
def cellLocationFind (cells : CellStore) (cellId : CellId) : Option Nat :=
  match cells.findIdx? fun c => L.cellIdsMatch c.cellId cellId true with
  | some i => some i
  | none => cells.findIdx? fun c => L.cellIdsMatch c.cellId cellId false

/-- `none` is the result `-ENOENT`. -/
def cellLocationFromTa (cells : CellStore) (cellId : CellId) (ta : UInt8) :
    Option EllPointUncCircle := do
  let i ← cellLocationFind L cells cellId
  let cell ← cells[i]?
  return { lat := cell.lat, lon := cell.lon,
           unc := L.gadDecUnc (L.gadEncUnc (taToM ta * 1000)) }

def cellLocationFindOrCreate (cells : CellStore) (cellId : CellId) : Nat × CellStore :=
  match cellLocationFind L cells cellId with
  | some i => (i, cells)
  | none => (cells.length, cells ++ [⟨cellId, 0, 0⟩])

def cellLocationSet (cells : CellStore) (cellId : CellId) (lat lon : Int32) : CellStore :=
  let (i, cells) := cellLocationFindOrCreate L cells cellId
  cells.modify i fun c => { c with lat := lat, lon := lon }

def cellLocationRemove (cells : CellStore) (cellId : CellId) : Int × CellStore :=
  match cellLocationFind L cells cellId with
  | none => (-enoent, cells)
  | some i => (0, cells.eraseIdx i)

def isSpace (c : Char) : Bool := c = ' ' || ('\t' ≤ c && c ≤ '\r')

def digitVal (c : Char) : Nat := c.toNat - '0'.toNat

/-- The value of the leading decimal digits. -/
def leadingDigits : Nat → List Char → Nat
  | n, [] => n
  | n, c :: cs => if c.isDigit then leadingDigits (10 * n + digitVal c) cs else n

/-- `atoi` of the C library: blanks, a sign, digits; anything after them is ignored. -/
def atoi (s : String) : Int :=
  match s.toList.dropWhile isSpace with
  | '-' :: cs => -leadingDigits 0 cs
  | '+' :: cs => leadingDigits 0 cs
  | cs => leadingDigits 0 cs

/-- The assignment of an `int` to a `uint16_t`. -/
def atou16 (s : String) : UInt16 := UInt16.ofInt (atoi s)

inductive CmdResult where
  | success | warning
  deriving DecidableEq

/-- The commands of the `cells` node, with the words that are arguments. -/
inductive VtyCmd where
  | cells
  | lacCi (lac ci lat lon : String)
  | noLacCi (lac ci : String)
  | cgi (mcc mnc lac ci lat lon : String)
  | noCgi (mcc mnc lac ci : String)
  deriving DecidableEq

def vtyParseLacCi (lac ci : String) : CellId := .lacAndCi (atou16 lac) (atou16 ci)

def vtyParseCgi (mcc mnc lac ci : String) : Option CellId := do
  let mcc ← L.mccFromStr mcc
  let (mnc, mnc3Digits) ← L.mncFromStr mnc
  return .wholeGlobal ⟨⟨⟨mcc, mnc, mnc3Digits⟩, atou16 lac⟩, atou16 ci⟩

/-- One coordinate of `vty_parse_location`, which allows values up to `bound` either way. -/
def vtyParseCoord (bound : Int64) (str : String) : Option Int32 :=
  match L.floatStrToInt str 6 with
  | none => none
  | some val => if val < -bound || val > bound then none else some val.toInt32

def vtyParseLocation (cells : CellStore) (cellId : CellId) (lat lon : String) :
    CmdResult × CellStore :=
  match vtyParseCoord L 90000000 lat with
  | none => (.warning, cells)
  | some lat =>
      match vtyParseCoord L 180000000 lon with
      | none => (.warning, cells)
      | some lon => (.success, cellLocationSet L cells cellId lat lon)

def cfgCellsLacCi (cells : CellStore) (lac ci lat lon : String) : CmdResult × CellStore :=
  vtyParseLocation L cells (vtyParseLacCi lac ci) lat lon

def cfgCellsNoLacCi (cells : CellStore) (lac ci : String) : CmdResult × CellStore :=
  let (rc, cells) := cellLocationRemove L cells (vtyParseLacCi lac ci)
  if rc ≠ 0 then (.warning, cells) else (.success, cells)

def cfgCellsCgi (cells : CellStore) (mcc mnc lac ci lat lon : String) : CmdResult × CellStore :=
  match vtyParseCgi L mcc mnc lac ci with
  | none => (.warning, cells)
  | some cellId => vtyParseLocation L cells cellId lat lon

def cfgCellsNoCgi (cells : CellStore) (mcc mnc lac ci : String) : CmdResult × CellStore :=
  match vtyParseCgi L mcc mnc lac ci with
  | none => (.warning, cells)
  | some cellId =>
      let (rc, cells) := cellLocationRemove L cells cellId
      if rc ≠ 0 then (.warning, cells) else (.success, cells)

def vtyCommand (cells : CellStore) : VtyCmd → CmdResult × CellStore
  | .cells => (.success, cells)
  | .lacCi lac ci lat lon => cfgCellsLacCi L cells lac ci lat lon
  | .noLacCi lac ci => cfgCellsNoLacCi L cells lac ci
  | .cgi mcc mnc lac ci lat lon => cfgCellsCgi L cells mcc mnc lac ci lat lon
  | .noCgi mcc mnc lac ci => cfgCellsNoCgi L cells mcc mnc lac ci

/-- The store after a sequence of commands, whatever each of them returns. -/
def vtyCommands (cells : CellStore) (cmds : List VtyCmd) : CellStore :=
  cmds.foldl (fun cells cmd => (vtyCommand L cells cmd).2) cells

/-- The words that name a cell in a printed line. -/
def configWriteCellId : CellId → List String
  | .lacAndCi lac ci => ["lac-ci", toString lac.toNat, toString ci.toNat]
  | .wholeGlobal cgi =>
      ["cgi", L.mccName cgi.lai.plmn.mcc, L.mncName cgi.lai.plmn.mnc cgi.lai.plmn.mnc3Digits,
        toString cgi.lai.lac.toNat, toString cgi.cellIdentity.toNat]
  | cellId => ["%", "[unsupported", "cell", "id", "type:", toString cellId.discr.value ++ "]"]

/-- The lines of `config_write_cells`, each as its words. -/
def configWriteCells (cells : CellStore) : List (List String) :=
  if cells.isEmpty then []
  else ["cells"] :: cells.map fun cell => configWriteCellId L cell.cellId ++
    ["lat", L.intToFloatStr cell.lat.toInt64 6, "lon", L.intToFloatStr cell.lon.toInt64 6]

/-- The command that the VTY runs for the words of a line. -/
def vtyParse : List String → Option VtyCmd
  | ["cells"] => some .cells
  | ["lac-ci", lac, ci, "lat", lat, "lon", lon] => some (.lacCi lac ci lat lon)
  | ["no", "lac-ci", lac, ci] => some (.noLacCi lac ci)
  | ["cgi", mcc, mnc, lac, ci, "lat", lat, "lon", lon] => some (.cgi mcc mnc lac ci lat lon)
  | ["no", "cgi", mcc, mnc, lac, ci] => some (.noCgi mcc mnc lac ci)
  | _ => none

end OsmoSmlc
