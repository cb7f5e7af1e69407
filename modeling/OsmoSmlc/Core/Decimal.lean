import Mathlib.Algebra.Group.Nat.Defs
import Mathlib.Data.List.TakeWhile
import Mathlib.Order.Basic

/-! Decimal notation with a point, as lists of characters: what is printed is read back. -/
namespace Osmo.Decimal

/-- The digits of `n`, filled up with zeros to at least `w` digits. -/
def pad (w n : Nat) : List Char :=
  List.replicate (w - (Nat.toDigits 10 n).length) '0' ++ Nat.toDigits 10 n

/-- The digits without the zeros at their end. -/
def trim (cs : List Char) : List Char := (cs.reverse.dropWhile fun c => c = '0').reverse

/-- The digits after the point, with the point if there are any. -/
def printFrac (w n : Nat) : List Char :=
  if trim (pad w n) = [] then [] else '.' :: trim (pad w n)

def printAbs (w n : Nat) : List Char := Nat.toDigits 10 (n / 10 ^ w) ++ printFrac w (n % 10 ^ w)

/-- `v / 10 ^ w`, with the digits after the point that it needs. -/
def print (w : Nat) (v : Int) : List Char :=
  (if v < 0 then ['-'] else []) ++ printAbs w v.natAbs

/-- Digits, and after a point more digits, of which those beyond the first `w` are ignored. -/
def readAbs (w : Nat) (cs : List Char) : Option Nat :=
  let int := Nat.ofDigitChars 10 (cs.takeWhile Char.isDigit) 0
  match cs.dropWhile Char.isDigit with
  | [] => some (int * 10 ^ w)
  | '.' :: frac =>
      let frac' := frac.take w
      if frac.all Char.isDigit then
        some (int * 10 ^ w + Nat.ofDigitChars 10 frac' 0 * 10 ^ (w - frac'.length))
      else none
  | _ => none

def readFixed (w : Nat) : List Char → Option Int
  | '-' :: cs => (readAbs w cs).map fun n : Nat => -(n : Int)
  | cs => (readAbs w cs).map fun n : Nat => (n : Int)

variable {w n : Nat} {cs : List Char}

theorem isDigit_toDigits {c : Char} (h : c ∈ Nat.toDigits 10 n) : c.isDigit = true :=
  Nat.isDigit_of_mem_toDigits (by decide) (by decide) h

theorem isDigit_pad {c : Char} (h : c ∈ pad w n) : c.isDigit = true := by
  rcases List.mem_append.mp h with h | h
  · rw [List.eq_of_mem_replicate h]
    rfl
  · exact isDigit_toDigits h

theorem ofDigitChars_pad : Nat.ofDigitChars 10 (pad w n) 0 = n := by
  rw [pad, Nat.ofDigitChars_append, Nat.ofDigitChars_replicate_zero, Nat.mul_zero,
    Nat.ofDigitChars_ten_toDigits]

theorem length_pad (hw : 0 < w) (h : n < 10 ^ w) : (pad w n).length = w := by
  have hl : (Nat.toDigits 10 n).length ≤ w := (Nat.length_toDigits_le_iff (by decide) hw).mpr h
  rw [pad, List.length_append, List.length_replicate]
  omega

/-- Digits are read up to the first character that is none. -/
theorem takeWhile_toDigits (n : Nat) (cs : List Char) (h : ∀ c ∈ cs.head?, c.isDigit = false) :
    (Nat.toDigits 10 n ++ cs).takeWhile Char.isDigit = Nat.toDigits 10 n ∧
    (Nat.toDigits 10 n ++ cs).dropWhile Char.isDigit = cs := by
  have hall : ∀ c ∈ Nat.toDigits 10 n, c.isDigit = true := fun c => isDigit_toDigits
  have hcs : cs.takeWhile Char.isDigit = [] ∧ cs.dropWhile Char.isDigit = cs := by
    cases cs with
    | nil => exact ⟨rfl, rfl⟩
    | cons c cs =>
      have hc := h c rfl
      simp [hc]
  rw [List.takeWhile_append_of_pos hall, List.dropWhile_append_of_pos hall, hcs.1, hcs.2,
    List.append_nil]
  exact ⟨rfl, rfl⟩

theorem eq_trim_append (cs : List Char) : ∃ k, cs = trim cs ++ List.replicate k '0' := by
  refine ⟨(cs.reverse.takeWhile fun c => c = '0').length, ?_⟩
  have hzero : cs.reverse.takeWhile (fun c => c = '0')
      = List.replicate (cs.reverse.takeWhile fun c => c = '0').length '0' := by
    refine List.eq_replicate_of_mem fun c hc => ?_
    simpa using List.mem_takeWhile_imp hc
  have hcs : cs.reverse = cs.reverse.takeWhile (fun c => c = '0')
      ++ cs.reverse.dropWhile fun c => c = '0' := List.takeWhile_append_dropWhile.symm
  have hrev := congrArg List.reverse hcs
  rw [List.reverse_reverse, List.reverse_append] at hrev
  rw [trim, ← List.reverse_replicate, ← hzero]
  exact hrev

theorem mem_of_mem_trim {c : Char} (h : c ∈ trim cs) : c ∈ cs := by
  obtain ⟨k, hk⟩ := eq_trim_append cs
  rw [hk]
  exact List.mem_append_left _ h

/-- The zeros that are left out only scale the digits that are kept. -/
theorem ofDigitChars_trim (cs : List Char) : (trim cs).length ≤ cs.length ∧
    Nat.ofDigitChars 10 (trim cs) 0 * 10 ^ (cs.length - (trim cs).length)
      = Nat.ofDigitChars 10 cs 0 := by
  obtain ⟨k, hk⟩ := eq_trim_append cs
  have hlen : cs.length = (trim cs).length + k := by
    have h := congrArg List.length hk
    rwa [List.length_append, List.length_replicate] at h
  have hval : Nat.ofDigitChars 10 cs 0 = 10 ^ k * Nat.ofDigitChars 10 (trim cs) 0 := by
    rw [← Nat.ofDigitChars_replicate_zero, ← Nat.ofDigitChars_append, ← hk]
  constructor
  · omega
  · rw [hlen, Nat.add_sub_cancel_left, hval, Nat.mul_comm]

theorem readAbs_print (hw : 0 < w) : readAbs w (printAbs w n) = some n := by
  have hlt : n % 10 ^ w < 10 ^ w := Nat.mod_lt _ (Nat.pow_pos (by decide))
  obtain ⟨hlen, hval⟩ := ofDigitChars_trim (pad w (n % 10 ^ w))
  rw [length_pad hw hlt] at hlen hval
  rw [ofDigitChars_pad] at hval
  obtain ⟨ht, hd⟩ := takeWhile_toDigits (n / 10 ^ w) (printFrac w (n % 10 ^ w)) (by
    unfold printFrac
    split <;> simp)
  unfold readAbs printAbs
  rw [ht, hd, Nat.ofDigitChars_ten_toDigits]
  by_cases hnil : trim (pad w (n % 10 ^ w)) = []
  · have hz : n % 10 ^ w = 0 := by
      rw [hnil] at hval
      simpa using hval.symm
    have hn := Nat.div_add_mod' n (10 ^ w)
    rw [hz, Nat.add_zero] at hn
    rw [printFrac, if_pos hnil]
    exact congrArg some hn
  · have hall : (trim (pad w (n % 10 ^ w))).all Char.isDigit = true :=
      List.all_eq_true.mpr fun c hc => isDigit_pad (mem_of_mem_trim hc)
    have htake : (trim (pad w (n % 10 ^ w))).take w = trim (pad w (n % 10 ^ w)) :=
      List.take_of_length_le hlen
    rw [printFrac, if_neg hnil]
    simp only [hall, if_true, htake, hval, Nat.div_add_mod']

theorem readFixed_minus :
    readFixed w ('-' :: cs) = (readAbs w cs).map fun n : Nat => -(n : Int) := rfl

theorem readFixed_of_digit {c : Char} (hc : c.isDigit = true) :
    readFixed w (c :: cs) = (readAbs w (c :: cs)).map fun n : Nat => (n : Int) := by
  unfold readFixed
  split
  · rename_i h
    cases (List.cons.inj h).1
    cases hc
  · rfl

/-- What is printed is read back. -/
theorem readFixed_print (hw : 0 < w) (v : Int) : readFixed w (print w v) = some v := by
  have hr : readAbs w (printAbs w v.natAbs) = some v.natAbs := readAbs_print hw
  unfold print
  by_cases hv : v < 0
  · rw [if_pos hv, List.singleton_append, readFixed_minus, hr, Option.map_some]
    congr 1
    omega
  · rw [if_neg hv, List.nil_append]
    unfold printAbs at hr ⊢
    cases hd : Nat.toDigits 10 (v.natAbs / 10 ^ w) with
    | nil => exact absurd hd Nat.toDigits_ne_nil
    | cons c ds =>
      have hc : c.isDigit = true := isDigit_toDigits (n := v.natAbs / 10 ^ w) (by simp [hd])
      rw [hd] at hr
      rw [List.cons_append, readFixed_of_digit hc]
      rw [List.cons_append] at hr
      rw [hr, Option.map_some]
      congr 1
      omega

example : print 6 23230000 = ['2', '3', '.', '2', '3'] := by decide

end Osmo.Decimal
