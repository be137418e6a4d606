/-
  `zf_common_function.c` and `zf_device_ips200.c`: numbers as the text on the screen.

  1. **Program** — `func_int_to_str` and `func_double_to_str` peel the digits off from the lowest one,
     and write them the other way round over the blanks of a buffer.

  2. **Reading back** — the digits of an integer are those of its value; what a reader sees of a
     number shown with `num` places is its rest modulo `10 ^ num`, cut off behind the last place.

  A buffer is the string in it, up to the first zero.
-/
import Mathlib
import Car2025.Lib.CFloat

namespace Car2025

/-! ## Program -/

/-- `data_temp`: the digits of an `int32`, the lowest first; there are at most ten. -/
def data_temp : ℕ → ℤ → List ℕ
  | 0, _ => []
  | bit + 1, number =>
    if number = 0 then [] else (number.tmod 10).natAbs :: data_temp bit (number.tdiv 10)

/-- `data_temp_point`: as many digits as asked for. -/
def data_temp_point : ℕ → ℤ → List ℕ
  | 0, _ => []
  | point_bit + 1, data_float =>
    (data_float.tmod 10).natAbs :: data_temp_point point_bit (data_float.tdiv 10)

/-- `digit + 0x30` -/
def digit_char (digit : ℕ) : Char := Char.ofNat (digit + 48)

/-- The digits in the order in which they are written. -/
def digits_str (digits : List ℕ) : List Char := digits.reverse.map digit_char

/-- `func_int_to_str` -/
def func_int_to_str (number : ℤ) : List Char :=
  if number < 0 then '-' :: digits_str (data_temp 10 (-number))
  else if number = 0 then ['0']
  else digits_str (data_temp 10 number)

/-- A text written over the start of a string. -/
def write_over (text buffer : List Char) : List Char := text ++ buffer.drop text.length

/-- The string that `ips200_show_int` shows. -/
def ips200_int_text (dat : ℤ) (num : ℕ) : List Char :=
  let dat_temp := if num < 10 then dat.tmod (10 ^ num) else dat
  write_over (func_int_to_str dat_temp) (List.replicate (num + 1) ' ')

section

variable {R : Type} [CFloat R]

/-- `func_double_to_str` -/
def func_double_to_str (number : R) (point_bit : ℕ) : List Char :=
  let data_int := CFloat.toInt number
  let data_float := CFloat.toInt ((· * CFloat.ofInt 10)^[point_bit] (number - CFloat.ofInt data_int))
  let text := digits_str ((data_int.tmod 10).natAbs :: data_temp 9 (data_int.tdiv 10)) ++
    if point_bit ≠ 0 then
      '.' :: if data_float = 0 then ['0'] else digits_str (data_temp_point point_bit data_float)
    else []
  if CFloat.lt number (CFloat.ofInt 0) then '-' :: text
  else if CFloat.lt (CFloat.ofInt 0) number then text
  else ['0', '.', '0']

/-- The string that `ips200_show_float` shows. -/
def ips200_float_text (dat : R) (num pointnum : ℕ) : List Char :=
  let offset : R := (· * CFloat.ofInt 10)^[num] (CFloat.ofInt 1)
  let dat_temp := dat - CFloat.ofInt ((CFloat.toInt dat).tdiv (CFloat.toInt offset)) * offset
  write_over (func_double_to_str dat_temp pointnum) (List.replicate (num + pointnum + 2) ' ')

end

/-! ## Digits -/

/-- The number that a row of digits stands for. -/
def digits_value (text : List Char) : ℕ := text.foldl (fun n c => 10 * n + (c.toNat - 48)) 0

section

variable {digits : List ℕ} {bit n : ℕ}

theorem digit_char_spec {digit : ℕ} (h : digit < 10) :
    (digit_char digit).toNat - 48 = digit ∧ (digit_char digit).isDigit = true := by
  have hall : ∀ digit < 10,
      (digit_char digit).toNat - 48 = digit ∧ (digit_char digit).isDigit = true := by decide
  exact hall digit h

theorem digits_str_cons (digit : ℕ) (digits : List ℕ) :
    digits_str (digit :: digits) = digits_str digits ++ [digit_char digit] := by
  rw [digits_str, List.reverse_cons, List.map_append]
  rfl

@[simp] theorem length_digits_str (digits : List ℕ) : (digits_str digits).length = digits.length := by
  rw [digits_str, List.length_map, List.length_reverse]

theorem digits_str_isDigit (h : ∀ d ∈ digits, d < 10) : ∀ c ∈ digits_str digits, c.isDigit = true := by
  intro c hc
  obtain ⟨d, hd, rfl⟩ := List.mem_map.mp hc
  exact (digit_char_spec (h d (List.mem_reverse.mp hd))).2

/-- **Written and read back**, the digits stand for their number, lowest first, as the code takes
    them off. -/
theorem digits_value_str (h : ∀ d ∈ digits, d < 10) :
    digits_value (digits_str digits) = Nat.ofDigits 10 digits := by
  induction digits with
  | nil => rfl
  | cons d digits ih =>
    rw [List.forall_mem_cons] at h
    have hlow : (digit_char d).toNat - 48 = d := (digit_char_spec h.1).1
    rw [digits_str_cons, digits_value, List.foldl_append, ← digits_value, ih h.2, Nat.ofDigits_cons]
    show 10 * Nat.ofDigits 10 digits + ((digit_char d).toNat - 48) = _
    rw [hlow, add_comm]

theorem tmod_ten (n : ℕ) : ((n : ℤ).tmod 10).natAbs = n % 10 := by
  rw [Int.tmod_eq_emod_of_nonneg (Int.natCast_nonneg n)]
  omega

theorem tdiv_ten (n : ℕ) : (n : ℤ).tdiv 10 = ((n / 10 : ℕ) : ℤ) := by
  rw [Int.tdiv_eq_ediv_of_nonneg (Int.natCast_nonneg n)]
  omega

/-- **Enough places** hold all the digits of a number, the lowest first, by induction on the
    places; -/
theorem data_temp_eq : ∀ {bit n : ℕ}, n < 10 ^ bit → data_temp bit n = Nat.digits 10 n := by
  intro bit
  induction bit with
  | zero =>
    intro n h
    obtain rfl : n = 0 := by omega
    rfl
  | succ bit ih =>
    intro n h
    rw [data_temp]
    by_cases h0 : n = 0
    · rw [h0, Nat.digits_zero]
      rfl
    · rw [if_neg (by exact_mod_cast h0), tmod_ten, tdiv_ten,
        ih (Nat.div_lt_of_lt_mul (by rwa [← pow_succ'])),
        Nat.digits_eq_cons_digits_div (by decide) h0]

/-- and a row of fixed length has those behind the zeros. -/
theorem data_temp_point_spec : ∀ {bit n : ℕ}, n < 10 ^ bit →
    Nat.ofDigits 10 (data_temp_point bit n) = n ∧ (data_temp_point bit n).length = bit ∧
      ∀ d ∈ data_temp_point bit n, d < 10 := by
  intro bit
  induction bit with
  | zero =>
    intro n h
    obtain rfl : n = 0 := by omega
    exact ⟨rfl, rfl, nofun⟩
  | succ bit ih =>
    intro n h
    obtain ⟨hvalue, hlength, hall⟩ := ih (n := n / 10) (Nat.div_lt_of_lt_mul (by rwa [← pow_succ']))
    rw [data_temp_point, tmod_ten, tdiv_ten]
    refine ⟨?_, ?_, ?_⟩
    · rw [Nat.ofDigits_cons, hvalue]
      exact Nat.mod_add_div n 10
    · rw [List.length_cons, hlength]
    · exact List.forall_mem_cons.mpr ⟨Nat.mod_lt n (by decide), hall⟩

/-! ## Integers -/

/-- What a reader sees of a number: the digits up to the first other sign. -/
def int_read (text : List Char) : ℕ := digits_value (text.takeWhile (·.isDigit))

theorem takeWhile_digits_str {rest : List Char} (h : ∀ d ∈ digits, d < 10)
    (hrest : rest.takeWhile (·.isDigit) = []) :
    (digits_str digits ++ rest).takeWhile (·.isDigit) = digits_str digits := by
  rw [List.takeWhile_append_of_pos (digits_str_isDigit h), hrest, List.append_nil]

theorem takeWhile_blanks (n k : ℕ) :
    ((List.replicate n ' ').drop k).takeWhile (·.isDigit) = [] := by
  rw [List.drop_replicate]
  cases n - k with
  | zero => rfl
  | succ m => rfl

theorem length_write_over {text buffer : List Char} (h : text.length ≤ buffer.length) :
    (write_over text buffer).length = buffer.length := by
  rw [write_over, List.length_append, List.length_drop]
  omega

/-- The text of a number that is not negative. -/
theorem func_int_to_str_eq (h : n < 10 ^ 10) :
    func_int_to_str n = digits_str (if n = 0 then [0] else Nat.digits 10 n) := by
  rw [func_int_to_str, if_neg (by omega)]
  by_cases h0 : n = 0
  · rw [if_pos h0, if_pos (by exact_mod_cast h0)]
    rfl
  · rw [if_neg h0, if_neg (by exact_mod_cast h0), data_temp_eq h]

/-- **An integer on the screen** takes one place more than asked for, and reads as its last digits.
    The digits in front are taken off before the text is made. -/
theorem ips200_int_text_spec {num : ℕ} (dat : ℕ) (h0 : 0 < num) (h10 : num < 10) :
    (ips200_int_text dat num).length = num + 1 ∧
      int_read (ips200_int_text dat num) = dat % 10 ^ num := by
  have hrest : ((dat : ℤ)).tmod (10 ^ num) = ((dat % 10 ^ num : ℕ) : ℤ) := by
    rw [Int.tmod_eq_emod_of_nonneg (Int.natCast_nonneg dat)]
    push_cast
    rfl
  have hlt : dat % 10 ^ num < 10 ^ num := Nat.mod_lt _ (by positivity)
  rw [ips200_int_text, if_pos h10, hrest]
  generalize dat % 10 ^ num = n at hlt ⊢
  have hle : 10 ^ num ≤ 10 ^ 10 := Nat.pow_le_pow_right (by decide) h10.le
  rw [func_int_to_str_eq (hlt.trans_le hle)]
  -- a zero has a digit of its own
  have hdigits : ∀ d ∈ (if n = 0 then [0] else Nat.digits 10 n), d < 10 := by
    split
    · decide
    · exact fun d hd => Nat.digits_lt_base (by decide) hd
  have hvalue : Nat.ofDigits 10 (if n = 0 then [0] else Nat.digits 10 n) = n := by
    split
    · next h => rw [h]; rfl
    · exact Nat.ofDigits_digits 10 n
  have hlength : (if n = 0 then [0] else Nat.digits 10 n).length ≤ num := by
    split
    · exact h0
    · exact (Nat.digits_length_le_iff (by decide) n).mpr hlt
  constructor
  · have hfits : (digits_str (if n = 0 then [0] else Nat.digits 10 n)).length ≤
        (List.replicate (num + 1) ' ').length := by
      rw [length_digits_str, List.length_replicate]
      omega
    rw [length_write_over hfits, List.length_replicate]
  · rw [int_read, write_over, takeWhile_digits_str hdigits (takeWhile_blanks _ _),
      digits_value_str hdigits, hvalue]

/-! ## Fractions -/

/-- What a reader sees of a number with a point. -/
def number_read (text : List Char) : ℚ :=
  let places := (text.dropWhile (·.isDigit)).tail.takeWhile (·.isDigit)
  int_read text + digits_value places / 10 ^ places.length

/-- A text that is a number with a point; the places behind it may be fewer than asked for. -/
structure Pointed (text : List Char) (whole places : List ℕ) : Prop where
  text : text = digits_str whole ++ '.' :: digits_str places
  whole : ∀ d ∈ whole, d < 10
  places : ∀ d ∈ places, d < 10

variable {text : List Char} {whole places : List ℕ} {num pointnum : ℕ} {q : ℚ}

theorem Pointed.length (h : Pointed text whole places) :
    text.length = whole.length + 1 + places.length := by
  rw [h.text, List.length_append, List.length_cons, length_digits_str, length_digits_str]
  omega

/-- **It reads as its digits**, whatever blanks follow, which is how the code fills up its field. -/
theorem Pointed.read (h : Pointed text whole places) (n : ℕ) :
    number_read (write_over text (List.replicate n ' ')) =
      ((Nat.ofDigits 10 whole : ℕ) : ℚ) +
        ((Nat.ofDigits 10 places : ℕ) : ℚ) / 10 ^ places.length := by
  have hwhole := digits_str_isDigit h.whole
  rw [number_read, int_read, write_over]
  generalize hrest : (List.replicate n ' ').drop text.length = rest
  have hblank : rest.takeWhile (·.isDigit) = [] := by
    rw [← hrest]
    exact takeWhile_blanks _ _
  rw [h.text, List.append_assoc, takeWhile_digits_str h.whole rfl,
    List.dropWhile_append_of_pos hwhole, List.cons_append, List.dropWhile_cons_of_neg (by decide),
    List.tail_cons, takeWhile_digits_str h.places hblank, length_digits_str,
    digits_value_str h.whole, digits_value_str h.places]

theorem iterate_mul_ten (q : ℚ) (n : ℕ) : (· * (CFloat.ofInt 10 : ℚ))^[n] q = q * 10 ^ n := by
  induction n with
  | zero => simp
  | succ n ih =>
    rw [Function.iterate_succ_apply', ih, CFloat.ofInt_rat, pow_succ]
    push_cast
    ring

/-- **The text of a number** from 0 up to `10 ^ num`, cut off behind `pointnum` places.  Nothing is
    rounded: each place is the digit that is there. -/
theorem func_double_to_str_pointed (hnum : 0 < num) (h10 : num ≤ 10) (hpoint : 0 < pointnum)
    (h0 : 0 ≤ q) (hlt : q < 10 ^ num) :
    ∃ whole places, Pointed (func_double_to_str q pointnum) whole places ∧
      whole.length ≤ num ∧ places.length ≤ pointnum ∧ Nat.ofDigits 10 whole = ⌊q⌋₊ ∧
      ((Nat.ofDigits 10 places : ℕ) : ℚ) / 10 ^ places.length =
        ⌊Int.fract q * 10 ^ pointnum⌋₊ / 10 ^ pointnum := by
  have hneg : ¬ CFloat.lt q (CFloat.ofInt 0) = true := by
    rw [CFloat.lt_rat, CFloat.ofInt_rat, Int.cast_zero]
    exact not_lt.mpr h0
  rw [func_double_to_str, if_neg hneg]
  by_cases hpos : q = 0
  · -- zero has a text of its own
    subst hpos
    refine ⟨[0], [0], ⟨?_, by decide, by decide⟩, hnum, hpoint, by simp, by simp⟩
    rw [if_neg (by simp)]
    rfl
  have hfloor : CFloat.toInt q = (⌊q⌋₊ : ℤ) := by
    rw [CFloat.toInt_of_nonneg h0, Int.natCast_floor_eq_floor h0]
  have hfract : 0 ≤ Int.fract q * 10 ^ pointnum := mul_nonneg (Int.fract_nonneg q) (by positivity)
  have hrest : CFloat.toInt ((· * (CFloat.ofInt 10 : ℚ))^[pointnum]
      (q - CFloat.ofInt (CFloat.toInt q))) = (⌊Int.fract q * 10 ^ pointnum⌋₊ : ℤ) := by
    rw [iterate_mul_ten, CFloat.toInt_of_nonneg h0, CFloat.ofInt_rat, Int.self_sub_floor,
      CFloat.toInt_of_nonneg hfract, Int.natCast_floor_eq_floor hfract]
  have hsmall : ⌊Int.fract q * 10 ^ pointnum⌋₊ < 10 ^ pointnum := by
    rw [Nat.floor_lt hfract]
    push_cast
    exact mul_lt_of_lt_one_left (by positivity) (Int.fract_lt_one q)
  have hwhole : ⌊q⌋₊ < 10 ^ num := by
    rw [Nat.floor_lt h0]
    exact_mod_cast hlt
  -- the lowest digit is written in any case, so the others have one place less
  have hquotient : ⌊q⌋₊ / 10 < 10 ^ (num - 1) :=
    Nat.div_lt_of_lt_mul (by rwa [← pow_succ', Nat.sub_add_cancel hnum])
  have hle : 10 ^ (num - 1) ≤ 10 ^ 9 := Nat.pow_le_pow_right (by decide) (by omega)
  have hlt' : CFloat.lt (CFloat.ofInt 0) q = true := by
    rw [CFloat.lt_rat, CFloat.ofInt_rat, Int.cast_zero]
    exact lt_of_le_of_ne h0 (Ne.symm hpos)
  rw [if_pos hlt', hrest, hfloor, if_pos hpoint.ne', tmod_ten, tdiv_ten,
    data_temp_eq (hquotient.trans_le hle)]
  -- places that are all 0 are written as one
  generalize ⌊Int.fract q * 10 ^ pointnum⌋₊ = part at hsmall ⊢
  refine ⟨⌊q⌋₊ % 10 :: Nat.digits 10 (⌊q⌋₊ / 10),
    if part = 0 then [0] else data_temp_point pointnum part, ⟨?_, ?_, ?_⟩, ?_, ?_, ?_, ?_⟩
  · by_cases hpart : part = 0
    · rw [if_pos hpart, if_pos (by exact_mod_cast hpart)]
      rfl
    · rw [if_neg hpart, if_neg (by exact_mod_cast hpart)]
  · exact List.forall_mem_cons.mpr
      ⟨Nat.mod_lt _ (by decide), fun d hd => Nat.digits_lt_base (by decide) hd⟩
  · split
    · decide
    · exact (data_temp_point_spec hsmall).2.2
  · rw [List.length_cons]
    have hlen := (Nat.digits_length_le_iff (by decide) _).mpr hquotient
    omega
  · split
    · exact hpoint
    · exact (data_temp_point_spec hsmall).2.1.le
  · rw [Nat.ofDigits_cons, Nat.ofDigits_digits]
    exact Nat.mod_add_div _ 10
  · split
    · next h => rw [h]; simp
    · rw [(data_temp_point_spec hsmall).1, (data_temp_point_spec hsmall).2.1]

/-- Cut off behind `p` places, a number is its whole part and the places of its fraction. -/
theorem floor_mul_pow (h0 : 0 ≤ q) (p : ℕ) :
    ⌊q * 10 ^ p⌋₊ = ⌊q⌋₊ * 10 ^ p + ⌊Int.fract q * 10 ^ p⌋₊ := by
  have hsplit : q * 10 ^ p = Int.fract q * 10 ^ p + ((⌊q⌋₊ * 10 ^ p : ℕ) : ℚ) := by
    have hq : q = Int.fract q + (⌊q⌋₊ : ℚ) := by
      rw [natCast_floor_eq_intCast_floor h0, Int.fract_add_floor]
    push_cast
    rw [← add_mul, ← hq]
  have hfract : 0 ≤ Int.fract q * 10 ^ p := mul_nonneg (Int.fract_nonneg q) (by positivity)
  rw [hsplit, Nat.floor_add_natCast hfract, add_comm]

/-- **The rest** of a number that is shown with `num` places. -/
theorem ips200_float_rest (num : ℕ) (h0 : 0 ≤ q) :
    ∃ k : ℕ, q - (CFloat.ofInt ((CFloat.toInt q).tdiv (CFloat.toInt
        ((· * (CFloat.ofInt 10 : ℚ))^[num] (CFloat.ofInt 1)))) *
          (· * (CFloat.ofInt 10 : ℚ))^[num] (CFloat.ofInt 1)) = q - (k : ℚ) * 10 ^ num ∧
      0 ≤ q - (k : ℚ) * 10 ^ num ∧ q - (k : ℚ) * 10 ^ num < 10 ^ num := by
  refine ⟨⌊q⌋₊ / 10 ^ num, ?_, ?_, ?_⟩
  · have hoffset : (· * (CFloat.ofInt 10 : ℚ))^[num] (CFloat.ofInt 1) = ((10 ^ num : ℤ) : ℚ) := by
      rw [iterate_mul_ten, CFloat.ofInt_rat]
      push_cast
      rw [one_mul]
    have hquotient : (CFloat.toInt q).tdiv (10 ^ num) = ((⌊q⌋₊ / 10 ^ num : ℕ) : ℤ) := by
      rw [CFloat.toInt_of_nonneg h0, ← Int.natCast_floor_eq_floor h0,
        Int.tdiv_eq_ediv_of_nonneg (Int.natCast_nonneg _)]
      push_cast
      rfl
    rw [hoffset, CFloat.toInt_intCast, hquotient, CFloat.ofInt_rat]
    push_cast
    rfl
  · have hle : ((⌊q⌋₊ / 10 ^ num * 10 ^ num : ℕ) : ℚ) ≤ ⌊q⌋₊ := by
      exact_mod_cast Nat.div_mul_le_self _ _
    have hfloor : (⌊q⌋₊ : ℚ) ≤ q := Nat.floor_le h0
    push_cast at hle
    linarith
  · have hlt : ((⌊q⌋₊ + 1 : ℕ) : ℚ) ≤ ((⌊q⌋₊ / 10 ^ num + 1) * 10 ^ num : ℕ) := by
      exact_mod_cast Nat.lt_mul_of_div_lt (Nat.lt_succ_self _) (by positivity)
    have hfloor : q < ⌊q⌋₊ + 1 := Nat.lt_floor_add_one q
    push_cast at hlt
    linarith

/-- **A number on the screen** takes two places more than asked for, and reads as its last digits,
    cut off behind `pointnum` places. -/
theorem ips200_float_text_spec (hnum : 0 < num) (h8 : num ≤ 8) (hpoint : 0 < pointnum)
    (h0 : 0 ≤ q) :
    (ips200_float_text q num pointnum).length = num + pointnum + 2 ∧
      number_read (ips200_float_text q num pointnum) =
        ((⌊q * 10 ^ pointnum⌋₊ % 10 ^ (num + pointnum) : ℕ) : ℚ) / 10 ^ pointnum := by
  obtain ⟨k, hrest, hrest0, hlt⟩ := ips200_float_rest num h0
  rw [ips200_float_text, hrest]
  obtain ⟨whole, places, hpointed, hwhole, hplaces, hint, hfrac⟩ :=
    func_double_to_str_pointed hnum (h8.trans (by decide)) hpoint hrest0 hlt
  constructor
  · have hlength := hpointed.length
    rw [length_write_over (by rw [List.length_replicate]; omega), List.length_replicate]
  · -- the digits that are cut off at the front are a multiple of `10 ^ (num + pointnum)`
    have hfloor : ⌊q * 10 ^ pointnum⌋₊ =
        ⌊(q - k * 10 ^ num) * 10 ^ pointnum⌋₊ + k * 10 ^ (num + pointnum) := by
      have hsum : q * 10 ^ pointnum =
          (q - k * 10 ^ num) * 10 ^ pointnum + ((k * 10 ^ (num + pointnum) : ℕ) : ℚ) := by
        push_cast
        ring
      rw [← Nat.floor_add_natCast (mul_nonneg hrest0 (by positivity)), ← hsum]
    have hsmall : ⌊(q - k * 10 ^ num) * 10 ^ pointnum⌋₊ < 10 ^ (num + pointnum) := by
      rw [Nat.floor_lt (mul_nonneg hrest0 (by positivity)), pow_add]
      push_cast
      exact mul_lt_mul_of_pos_right hlt (by positivity)
    rw [hpointed.read, hint, hfrac, hfloor, Nat.add_mul_mod_self_right, Nat.mod_eq_of_lt hsmall,
      floor_mul_pow hrest0]
    push_cast
    field_simp

end

end Car2025
