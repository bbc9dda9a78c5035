import PeerNode.Lib.Decimal
import PeerNode.Lib.Json

/-!
# Integers to text

`libs/contrib/rapidjson/internal/itoa.h`: the four functions `Writer` spells its integers
with. They take a number apart in groups of eight digits, a group in halves of four, and
look the digits up two at a time in a table; the leading group tests the number against
every power of ten to leave the zeros in front out.

`itoa_spells` says that this is plain decimal for every value of the four types, and that
it fits the buffer `Writer` reserves for it.
-/

namespace PeerNode.Rapidjson

open Decimal

/-- `GetDigitsLut`. -/
def digitsLut : List Char :=
  ['0','0','0','1','0','2','0','3','0','4','0','5','0','6','0','7','0','8','0','9',
   '1','0','1','1','1','2','1','3','1','4','1','5','1','6','1','7','1','8','1','9',
   '2','0','2','1','2','2','2','3','2','4','2','5','2','6','2','7','2','8','2','9',
   '3','0','3','1','3','2','3','3','3','4','3','5','3','6','3','7','3','8','3','9',
   '4','0','4','1','4','2','4','3','4','4','4','5','4','6','4','7','4','8','4','9',
   '5','0','5','1','5','2','5','3','5','4','5','5','5','6','5','7','5','8','5','9',
   '6','0','6','1','6','2','6','3','6','4','6','5','6','6','6','7','6','8','6','9',
   '7','0','7','1','7','2','7','3','7','4','7','5','7','6','7','7','7','8','7','9',
   '8','0','8','1','8','2','8','3','8','4','8','5','8','6','8','7','8','8','8','9',
   '9','0','9','1','9','2','9','3','9','4','9','5','9','6','9','7','9','8','9','9']

/-- `cDigitsLut[i]`. -/
def lut (i : UInt32) : Char := digitsLut.getD i.toNat '0'

/-- `if (shown) *buffer++ = c`. -/
def putIf (shown : Bool) (c : Char) : List Char := if shown then [c] else []

/-- A value below 10000, its leading zeros left out. -/
def upTo4 (value : UInt32) : List Char :=
  let d1 := (value / 100) <<< 1
  let d2 := (value % 100) <<< 1
  putIf (value ≥ 1000) (lut d1) ++ putIf (value ≥ 100) (lut (d1 + 1)) ++
    putIf (value ≥ 10) (lut d2) ++ [lut (d2 + 1)]

/-- A value of eight digits, `bbbbcccc`, all written. -/
def put8 (value : UInt32) : List Char :=
  let b := value / 10000
  let c := value % 10000
  let d1 := (b / 100) <<< 1
  let d2 := (b % 100) <<< 1
  let d3 := (c / 100) <<< 1
  let d4 := (c % 100) <<< 1
  [lut d1, lut (d1 + 1), lut d2, lut (d2 + 1), lut d3, lut (d3 + 1), lut d4, lut (d4 + 1)]

/-- A value of at least five and at most eight digits. -/
def upTo8 (value : UInt32) : List Char :=
  let b := value / 10000
  let c := value % 10000
  let d1 := (b / 100) <<< 1
  let d2 := (b % 100) <<< 1
  let d3 := (c / 100) <<< 1
  let d4 := (c % 100) <<< 1
  putIf (value ≥ 10000000) (lut d1) ++ putIf (value ≥ 1000000) (lut (d1 + 1)) ++
    putIf (value ≥ 100000) (lut d2) ++
    [lut (d2 + 1), lut d3, lut (d3 + 1), lut d4, lut (d4 + 1)]

/-- `static_cast<char>('0' + static_cast<char>(a))`. -/
def digitChar (a : UInt32) : Char := Char.ofNat (48 + a.toNat)

/-- `u32toa`: what it writes to the buffer. -/
def u32toa (value : UInt32) : List Char :=
  if value < 10000 then upTo4 value
  else if value < 100000000 then upTo8 value
  else
    let a := value / 100000000
    let value := value % 100000000
    let i := a <<< 1
    (if a ≥ 10 then [lut i, lut (i + 1)] else [digitChar a]) ++ put8 value

/-- `i32toa`. -/
def i32toa (value : Int32) : List Char :=
  let u := value.toUInt32
  if value < 0 then '-' :: u32toa (~~~u + 1) else u32toa u

def kTen8 : UInt64 := 100000000
def kTen9 : UInt64 := kTen8 * 10
def kTen10 : UInt64 := kTen8 * 100
def kTen11 : UInt64 := kTen8 * 1000
def kTen12 : UInt64 := kTen8 * 10000
def kTen13 : UInt64 := kTen8 * 100000
def kTen14 : UInt64 := kTen8 * 1000000
def kTen15 : UInt64 := kTen8 * 10000000
def kTen16 : UInt64 := kTen8 * kTen8

/-- A value of at least nine and at most sixteen digits: the upper group tests the whole value. -/
def upTo16 (value : UInt64) : List Char :=
  let v0 := (value / kTen8).toUInt32
  let v1 := (value % kTen8).toUInt32
  let b0 := v0 / 10000
  let c0 := v0 % 10000
  let d1 := (b0 / 100) <<< 1
  let d2 := (b0 % 100) <<< 1
  let d3 := (c0 / 100) <<< 1
  let d4 := (c0 % 100) <<< 1
  putIf (value ≥ kTen15) (lut d1) ++ putIf (value ≥ kTen14) (lut (d1 + 1)) ++
    putIf (value ≥ kTen13) (lut d2) ++ putIf (value ≥ kTen12) (lut (d2 + 1)) ++
    putIf (value ≥ kTen11) (lut d3) ++ putIf (value ≥ kTen10) (lut (d3 + 1)) ++
    putIf (value ≥ kTen9) (lut d4) ++ [lut (d4 + 1)] ++ put8 v1

/-- What `u64toa` writes before its last sixteen digits: a value of at most four digits. -/
def upTo1844 (a : UInt32) : List Char :=
  if a < 10 then [digitChar a]
  else if a < 100 then
    let i := a <<< 1
    [lut i, lut (i + 1)]
  else if a < 1000 then
    let i := (a % 100) <<< 1
    [digitChar (a / 100), lut i, lut (i + 1)]
  else
    let i := (a / 100) <<< 1
    let j := (a % 100) <<< 1
    [lut i, lut (i + 1), lut j, lut (j + 1)]

/-- `u64toa`. -/
def u64toa (value : UInt64) : List Char :=
  if value < kTen8 then
    let v := value.toUInt32
    if v < 10000 then upTo4 v else upTo8 v
  else if value < kTen16 then upTo16 value
  else
    let a := (value / kTen16).toUInt32
    let value := value % kTen16
    upTo1844 a ++ put8 (value / kTen8).toUInt32 ++ put8 (value % kTen8).toUInt32

/-- `i64toa`. -/
def i64toa (value : Int64) : List Char :=
  let u := value.toUInt64
  if value < 0 then '-' :: u64toa (~~~u + 1) else u64toa u

/-! ## The table and the groups -/

private theorem lut_table : ∀ q < 100,
    digitsLut.getD (2 * q) '0' = Nat.digitChar (q / 10) ∧
      digitsLut.getD (2 * q + 1) '0' = Nat.digitChar (q % 10) := by decide

private theorem double_toNat {q : UInt32} (h : q.toNat < 100) : (q <<< 1).toNat = 2 * q.toNat := by
  rw [UInt32.toNat_shiftLeft, Nat.shiftLeft_eq]
  show q.toNat * 2 % 2 ^ 32 = 2 * q.toNat
  omega

/-- Of a number below 100, the table has the upper digit at an even place. -/
theorem lut_upper {q : UInt32} (h : q.toNat < 100) : lut (q <<< 1) = (q.toNat / 10).digitChar := by
  rw [lut, double_toNat h]
  exact (lut_table q.toNat h).1

/-- And the lower digit behind it. -/
theorem lut_lower {q : UInt32} (h : q.toNat < 100) :
    lut (q <<< 1 + 1) = (q.toNat % 10).digitChar := by
  have place : (q <<< 1 + 1).toNat = 2 * q.toNat + 1 := by
    rw [UInt32.toNat_add, double_toNat h, UInt32.toNat_one]
    omega
  rw [lut, place]
  exact (lut_table q.toNat h).2

private theorem digitChar_eq : ∀ a < 10, Char.ofNat (48 + a) = Nat.digitChar a := by decide

theorem digitChar_of_lt {a : UInt32} (h : a.toNat < 10) : digitChar a = a.toNat.digitChar :=
  digitChar_eq a.toNat h

/-- The two entries of the table a number below 100 has. -/
private theorem lut_pair {q : UInt32} {d e : Nat} (upper : q.toNat / 10 = d)
    (lower : q.toNat % 10 = e) (small : d < 10) :
    lut (q <<< 1) = d.digitChar ∧ lut (q <<< 1 + 1) = e.digitChar := by
  have h : q.toNat < 100 := by omega
  rw [lut_upper h, lut_lower h, upper, lower]
  exact ⟨rfl, rfl⟩

/-- The eight digits of a value that has no more, by the table. -/
private theorem lut_eight {value : UInt32} (h : value.toNat < 10 ^ 8) :
    (lut ((value / 10000 / 100) <<< 1) = digitAt 7 value.toNat ∧
      lut ((value / 10000 / 100) <<< 1 + 1) = digitAt 6 value.toNat) ∧
    (lut ((value / 10000 % 100) <<< 1) = digitAt 5 value.toNat ∧
      lut ((value / 10000 % 100) <<< 1 + 1) = digitAt 4 value.toNat) ∧
    (lut ((value % 10000 / 100) <<< 1) = digitAt 3 value.toNat ∧
      lut ((value % 10000 / 100) <<< 1 + 1) = digitAt 2 value.toNat) ∧
    (lut ((value % 10000 % 100) <<< 1) = digitAt 1 value.toNat ∧
      lut ((value % 10000 % 100) <<< 1 + 1) = digitAt 0 value.toNat) := by
  have hundred : (100 : UInt32).toNat = 100 := rfl
  have tenThousand : (10000 : UInt32).toNat = 10000 := rfl
  refine ⟨lut_pair ?_ ?_ ?_, lut_pair ?_ ?_ ?_, lut_pair ?_ ?_ ?_, lut_pair ?_ ?_ ?_⟩ <;>
    simp only [UInt32.toNat_div, UInt32.toNat_mod, hundred, tenThousand, Nat.reducePow] <;> omega

theorem put8_eq {value : UInt32} (h : value.toNat < 10 ^ 8) :
    put8 value = padded 8 value.toNat := by
  obtain ⟨⟨h7, h6⟩, ⟨h5, h4⟩, ⟨h3, h2⟩, ⟨h1, h0⟩⟩ := lut_eight h
  simp only [put8, h7, h6, h5, h4, h3, h2, h1, h0, padded]

/-- A digit that is written if the value reaches its place. -/
private theorem putIf_reaches {shown : Prop} [Decidable shown] {k n : Nat}
    (reaches : shown ↔ 10 ^ k ≤ n) :
    putIf (decide shown) (digitAt k n) = if 10 ^ k ≤ n then [digitAt k n] else [] := by
  simp only [putIf, decide_eq_true_eq, reaches]

theorem upTo4_eq {value : UInt32} (h : value.toNat < 10 ^ 4) :
    upTo4 value = Nat.toDigits 10 value.toNat := by
  have hundred : (100 : UInt32).toNat = 100 := rfl
  have upper : lut ((value / 100) <<< 1) = digitAt 3 value.toNat ∧
      lut ((value / 100) <<< 1 + 1) = digitAt 2 value.toNat := by
    refine lut_pair ?_ ?_ ?_ <;>
      simp only [UInt32.toNat_div, hundred, Nat.reducePow] <;> omega
  have lower : lut ((value % 100) <<< 1) = digitAt 1 value.toNat ∧
      lut ((value % 100) <<< 1 + 1) = digitAt 0 value.toNat := by
    refine lut_pair ?_ ?_ ?_ <;>
      simp only [UInt32.toNat_mod, hundred, Nat.reducePow] <;> omega
  have r3 : value ≥ 1000 ↔ 10 ^ 3 ≤ value.toNat := UInt32.le_iff_toNat_le
  have r2 : value ≥ 100 ↔ 10 ^ 2 ≤ value.toNat := UInt32.le_iff_toNat_le
  have r1 : value ≥ 10 ↔ 10 ^ 1 ≤ value.toNat := UInt32.le_iff_toNat_le
  rw [toDigits_eq_trimmed (k := 3) h]
  simp only [upTo4, upper, lower, putIf_reaches r3, putIf_reaches r2, putIf_reaches r1, trimmed,
    List.append_assoc]

theorem upTo8_eq {value : UInt32} (least : 10 ^ 4 ≤ value.toNat) (h : value.toNat < 10 ^ 8) :
    upTo8 value = Nat.toDigits 10 value.toNat := by
  obtain ⟨⟨h7, h6⟩, ⟨h5, h4⟩, ⟨h3, h2⟩, ⟨h1, h0⟩⟩ := lut_eight h
  have r7 : value ≥ 10000000 ↔ 10 ^ 7 ≤ value.toNat := UInt32.le_iff_toNat_le
  have r6 : value ≥ 1000000 ↔ 10 ^ 6 ≤ value.toNat := UInt32.le_iff_toNat_le
  have r5 : value ≥ 100000 ↔ 10 ^ 5 ≤ value.toNat := UInt32.le_iff_toNat_le
  have r4 : 10 ^ 4 ≤ value.toNat ∧ 10 ^ 3 ≤ value.toNat ∧ 10 ^ 2 ≤ value.toNat ∧
      10 ^ 1 ≤ value.toNat := by omega
  rw [toDigits_eq_trimmed (k := 7) h]
  simp only [upTo8, h7, h6, h5, h4, h3, h2, h1, h0, putIf_reaches r7, putIf_reaches r6,
    putIf_reaches r5, trimmed, r4, if_true, List.append_assoc, List.cons_append, List.nil_append]

/-- A value that is split after `k` places, its upper part in front. -/
private theorem toDigits_split {k n : Nat} {front back : List Char}
    (upper : front = Nat.toDigits 10 (n / 10 ^ k)) (pos : 0 < n / 10 ^ k)
    (lower : back = padded k n) : front ++ back = Nat.toDigits 10 n := by
  rw [toDigits_eq_append_padded pos, upper, lower]

theorem u32toa_eq (value : UInt32) : u32toa value = Nat.toDigits 10 value.toNat := by
  have small : value < 10000 ↔ value.toNat < 10 ^ 4 := UInt32.lt_iff_toNat_lt
  have middle : value < 100000000 ↔ value.toNat < 10 ^ 8 := UInt32.lt_iff_toNat_lt
  have bound := value.toNat_lt
  have tenMillions : (100000000 : UInt32).toNat = 10 ^ 8 := rfl
  have front : (value / 100000000).toNat = value.toNat / 10 ^ 8 := by
    rw [UInt32.toNat_div, tenMillions]
  have back : (value % 100000000).toNat = value.toNat % 10 ^ 8 := by
    rw [UInt32.toNat_mod, tenMillions]
  unfold u32toa
  split
  · next h => exact upTo4_eq (small.mp h)
  split
  · next large h => exact upTo8_eq (Nat.le_of_not_lt (mt small.mpr large)) (middle.mp h)
  · next large =>
    have large : 10 ^ 8 ≤ value.toNat := Nat.le_of_not_lt (mt middle.mpr large)
    refine toDigits_split (k := 8) ?_ (by omega) ?_
    · have two : value / 100000000 ≥ 10 ↔ 10 ≤ (value / 100000000).toNat :=
        UInt32.le_iff_toNat_le
      rw [← front]
      split
      · next h =>
        have h := two.mp h
        have hundred : (value / 100000000).toNat < 100 := by omega
        rw [lut_upper hundred, lut_lower hundred, Nat.toDigits_of_base_le (by decide) h,
          Nat.toDigits_of_lt_base (by omega)]
        rfl
      · next h =>
        have h : (value / 100000000).toNat < 10 := Nat.lt_of_not_le (mt two.mpr h)
        rw [digitChar_of_lt h, Nat.toDigits_of_lt_base h]
    · rw [put8_eq (by omega), back, padded_mod (Nat.le_refl 8)]

/-- The upper group of a value of nine to sixteen digits. -/
private theorem upTo16_front {value : UInt64} {v0 : UInt32} (h : v0.toNat = value.toNat / 10 ^ 8)
    (least : 10 ^ 8 ≤ value.toNat) (most : value.toNat < 10 ^ 16) :
    putIf (value ≥ kTen15) (lut ((v0 / 10000 / 100) <<< 1)) ++
        putIf (value ≥ kTen14) (lut ((v0 / 10000 / 100) <<< 1 + 1)) ++
        putIf (value ≥ kTen13) (lut ((v0 / 10000 % 100) <<< 1)) ++
        putIf (value ≥ kTen12) (lut ((v0 / 10000 % 100) <<< 1 + 1)) ++
        putIf (value ≥ kTen11) (lut ((v0 % 10000 / 100) <<< 1)) ++
        putIf (value ≥ kTen10) (lut ((v0 % 10000 / 100) <<< 1 + 1)) ++
        putIf (value ≥ kTen9) (lut ((v0 % 10000 % 100) <<< 1)) ++
        [lut ((v0 % 10000 % 100) <<< 1 + 1)] = Nat.toDigits 10 (value.toNat / 10 ^ 8) := by
  have bound : v0.toNat < 10 ^ 8 := by omega
  obtain ⟨⟨h7, h6⟩, ⟨h5, h4⟩, ⟨h3, h2⟩, ⟨h1, h0⟩⟩ := lut_eight bound
  have reach (c : UInt64) (k : Nat) (hc : c.toNat = 10 ^ k * 10 ^ 8) :
      value ≥ c ↔ 10 ^ k ≤ v0.toNat := by
    rw [h, Nat.le_div_iff_mul_le (by decide), ← hc]
    exact UInt64.le_iff_toNat_le
  rw [← h, toDigits_eq_trimmed (k := 7) bound]
  simp only [h7, h6, h5, h4, h3, h2, h1, h0, putIf_reaches (reach kTen15 7 rfl),
    putIf_reaches (reach kTen14 6 rfl), putIf_reaches (reach kTen13 5 rfl),
    putIf_reaches (reach kTen12 4 rfl), putIf_reaches (reach kTen11 3 rfl),
    putIf_reaches (reach kTen10 2 rfl), putIf_reaches (reach kTen9 1 rfl), trimmed,
    List.append_assoc]

theorem upTo16_eq {value : UInt64} (least : 10 ^ 8 ≤ value.toNat)
    (most : value.toNat < 10 ^ 16) : upTo16 value = Nat.toDigits 10 value.toNat := by
  have ten8 : kTen8.toNat = 10 ^ 8 := rfl
  have front : (value / kTen8).toUInt32.toNat = value.toNat / 10 ^ 8 := by
    rw [UInt64.toNat_toUInt32, UInt64.toNat_div, ten8]
    omega
  have back : (value % kTen8).toUInt32.toNat = value.toNat % 10 ^ 8 := by
    rw [UInt64.toNat_toUInt32, UInt64.toNat_mod, ten8]
    omega
  refine toDigits_split (k := 8) (upTo16_front front least most) (by omega) ?_
  rw [put8_eq (by omega), back, padded_mod (Nat.le_refl 8)]

theorem upTo1844_eq {a : UInt32} (h : a.toNat < 10 ^ 4) :
    upTo1844 a = Nat.toDigits 10 a.toNat := by
  have hundred : (100 : UInt32).toNat = 100 := rfl
  have one : a < 10 ↔ a.toNat < 10 := UInt32.lt_iff_toNat_lt
  have two : a < 100 ↔ a.toNat < 100 := UInt32.lt_iff_toNat_lt
  have three : a < 1000 ↔ a.toNat < 1000 := UInt32.lt_iff_toNat_lt
  have front : (a / 100).toNat = a.toNat / 100 := by rw [UInt32.toNat_div, hundred]
  have back : (a % 100).toNat = a.toNat % 100 := by rw [UInt32.toNat_mod, hundred]
  have small : (a % 100).toNat < 100 := by omega
  rw [toDigits_eq_trimmed (k := 3) h]
  simp only [upTo1844, one, two, three, trimmed, digitAt]
  split
  · next h =>
    have h3 : ¬ 10 ^ 3 ≤ a.toNat := by omega
    have h2 : ¬ 10 ^ 2 ≤ a.toNat := by omega
    have h1 : ¬ 10 ^ 1 ≤ a.toNat := by omega
    simp only [h3, h2, h1, if_false, digitChar_of_lt h, Nat.pow_zero, Nat.div_one,
      Nat.mod_eq_of_lt h, List.nil_append]
  split
  · next least h =>
    have h3 : ¬ 10 ^ 3 ≤ a.toNat := by omega
    have h2 : ¬ 10 ^ 2 ≤ a.toNat := by omega
    have h1 : 10 ^ 1 ≤ a.toNat := by omega
    have upper : a.toNat / 10 ^ 1 % 10 = a.toNat / 10 := by omega
    simp only [h3, h2, h1, if_false, if_true, lut_upper h, lut_lower h, upper, Nat.pow_zero,
      Nat.div_one, List.nil_append, List.cons_append]
  split
  · next least h =>
    have h3 : ¬ 10 ^ 3 ≤ a.toNat := by omega
    have h2 : 10 ^ 2 ≤ a.toNat := by omega
    have h1 : 10 ^ 1 ≤ a.toNat := by omega
    have first : (a / 100).toNat < 10 := by omega
    have d2 : a.toNat / 10 ^ 2 % 10 = a.toNat / 100 := by omega
    have d1 : a.toNat / 10 ^ 1 % 10 = a.toNat % 100 / 10 := by omega
    have d0 : a.toNat / 10 ^ 0 % 10 = a.toNat % 100 % 10 := by omega
    simp only [h3, h2, h1, if_false, if_true, digitChar_of_lt first, lut_upper small,
      lut_lower small, front, back, d2, d1, d0, List.nil_append, List.cons_append]
  · next least =>
    have h3 : 10 ^ 3 ≤ a.toNat := by omega
    have h2 : 10 ^ 2 ≤ a.toNat := by omega
    have h1 : 10 ^ 1 ≤ a.toNat := by omega
    have first : (a / 100).toNat < 100 := by omega
    have d3 : a.toNat / 10 ^ 3 % 10 = a.toNat / 100 / 10 := by omega
    have d2 : a.toNat / 10 ^ 2 % 10 = a.toNat / 100 % 10 := by omega
    have d1 : a.toNat / 10 ^ 1 % 10 = a.toNat % 100 / 10 := by omega
    have d0 : a.toNat / 10 ^ 0 % 10 = a.toNat % 100 % 10 := by omega
    simp only [h3, h2, h1, if_true, lut_upper first, lut_lower first, lut_upper small,
      lut_lower small, front, back, d3, d2, d1, d0, List.nil_append, List.cons_append]

theorem u64toa_eq (value : UInt64) : u64toa value = Nat.toDigits 10 value.toNat := by
  have bound := value.toNat_lt
  have ten8 : kTen8.toNat = 10 ^ 8 := rfl
  have ten16 : kTen16.toNat = 10 ^ 16 := rfl
  have below8 : value < kTen8 ↔ value.toNat < 10 ^ 8 := UInt64.lt_iff_toNat_lt
  have below16 : value < kTen16 ↔ value.toNat < 10 ^ 16 := UInt64.lt_iff_toNat_lt
  unfold u64toa
  split
  · next h =>
    have h := below8.mp h
    have same : value.toUInt32.toNat = value.toNat := by
      rw [UInt64.toNat_toUInt32]
      omega
    have small : value.toUInt32 < 10000 ↔ value.toNat < 10 ^ 4 := by
      rw [← same]
      exact UInt32.lt_iff_toNat_lt
    simp only [small]
    split
    · rw [upTo4_eq (by omega), same]
    · rw [upTo8_eq (by omega) (by omega), same]
  split
  · next large h => exact upTo16_eq (Nat.le_of_not_lt (mt below8.mpr large)) (below16.mp h)
  · next large =>
    have large : 10 ^ 16 ≤ value.toNat := Nat.le_of_not_lt (mt below16.mpr large)
    have front : (value / kTen16).toUInt32.toNat = value.toNat / 10 ^ 16 := by
      rw [UInt64.toNat_toUInt32, UInt64.toNat_div, ten16]
      omega
    have middle : (value % kTen16 / kTen8).toUInt32.toNat = value.toNat % 10 ^ 16 / 10 ^ 8 := by
      rw [UInt64.toNat_toUInt32, UInt64.toNat_div, UInt64.toNat_mod, ten16, ten8]
      omega
    have back : (value % kTen16 % kTen8).toUInt32.toNat = value.toNat % 10 ^ 16 % 10 ^ 8 := by
      rw [UInt64.toNat_toUInt32, UInt64.toNat_mod, UInt64.toNat_mod, ten16, ten8]
      omega
    rw [List.append_assoc]
    refine toDigits_split (k := 16) ?_ (by omega) ?_
    · rw [upTo1844_eq (by omega), front]
    · rw [put8_eq (by omega), put8_eq (by omega), middle, back, padded_mod (Nat.le_refl 8),
        ← padded_append 8 8, padded_mod (Nat.le_refl 16)]

/-! ## Signs -/

/-- `~u + 1` is the magnitude of a negative number. -/
private theorem toNat_not_add_one {w : Nat} {u : BitVec w} (negative : u.toInt < 0) :
    (~~~u + 1#w).toNat = u.toInt.natAbs := by
  have bound := u.isLt
  rw [BitVec.toInt_eq_toNat_cond] at negative ⊢
  split at negative
  · omega
  · next high =>
    rw [if_neg high, ← BitVec.neg_eq_not_add, BitVec.toNat_neg, Nat.mod_eq_of_lt (by omega)]
    omega

private theorem toNat_of_nonneg {w : Nat} {u : BitVec w} (nonneg : ¬ u.toInt < 0) :
    u.toNat = u.toInt.natAbs := by
  have bound := u.isLt
  rw [BitVec.toInt_eq_toNat_cond] at nonneg ⊢
  split at nonneg
  · next low => rw [if_pos low, Int.natAbs_natCast]
  · omega

theorem i32toa_eq (value : Int32) : i32toa value = Json.renderInt value.toInt := by
  have negative : value < 0 ↔ value.toInt < 0 := Int32.lt_iff_toInt_lt
  unfold i32toa Json.renderInt
  simp only [negative, u32toa_eq]
  split
  · next h =>
    have magnitude : (~~~value.toUInt32 + 1).toNat = value.toInt.natAbs := toNat_not_add_one h
    rw [magnitude]
  · next h =>
    have magnitude : value.toUInt32.toNat = value.toInt.natAbs := toNat_of_nonneg h
    rw [magnitude]

theorem i64toa_eq (value : Int64) : i64toa value = Json.renderInt value.toInt := by
  have negative : value < 0 ↔ value.toInt < 0 := Int64.lt_iff_toInt_lt
  unfold i64toa Json.renderInt
  simp only [negative, u64toa_eq]
  split
  · next h =>
    have magnitude : (~~~value.toUInt64 + 1).toNat = value.toInt.natAbs := toNat_not_add_one h
    rw [magnitude]
  · next h =>
    have magnitude : value.toUInt64.toNat = value.toInt.natAbs := toNat_of_nonneg h
    rw [magnitude]

/-! ## What the writer relies on -/

private theorem length_toDigits_le {k n : Nat} (h : n < 10 ^ (k + 1)) :
    (Nat.toDigits 10 n).length ≤ k + 1 := by
  rw [toDigits_eq_trimmed h]
  exact length_trimmed_le k n

private theorem length_renderInt_le {k : Nat} {i : Int} (h : i.natAbs < 10 ^ (k + 1)) :
    (Json.renderInt i).length ≤ k + 2 := by
  have digits := length_toDigits_le h
  unfold Json.renderInt
  split
  · rw [List.length_cons]
    omega
  · omega

/-- **The writer's integers are plain decimal** and fit the buffers it reserves, of 10, 11, 20 and
21 characters. -/
theorem itoa_spells :
    (∀ value : UInt32, u32toa value = Nat.toDigits 10 value.toNat ∧ (u32toa value).length ≤ 10) ∧
    (∀ value : Int32, i32toa value = Json.renderInt value.toInt ∧ (i32toa value).length ≤ 11) ∧
    (∀ value : UInt64, u64toa value = Nat.toDigits 10 value.toNat ∧ (u64toa value).length ≤ 20) ∧
    (∀ value : Int64, i64toa value = Json.renderInt value.toInt ∧ (i64toa value).length ≤ 21) := by
  refine ⟨fun value => ?_, fun value => ?_, fun value => ?_, fun value => ?_⟩
  · have bound := value.toNat_lt
    rw [u32toa_eq]
    exact ⟨rfl, length_toDigits_le (by omega)⟩
  · have low := value.le_toInt
    have high := value.toInt_lt
    rw [i32toa_eq]
    exact ⟨rfl, length_renderInt_le (k := 9) (by omega)⟩
  · have bound := value.toNat_lt
    rw [u64toa_eq]
    exact ⟨rfl, length_toDigits_le (by omega)⟩
  · have low := value.le_toInt
    have high := value.toInt_lt
    rw [i64toa_eq]
    exact ⟨rfl, length_renderInt_le (k := 19) (by omega)⟩

end PeerNode.Rapidjson
