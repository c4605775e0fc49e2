import Mathlib.Data.Int.Log
import Mathlib.Data.List.TakeWhile
import Mathlib.Data.Rat.Floor
import Mathlib.Tactic.Linarith
import Mathlib.Tactic.NormNum
import Mathlib.Tactic.Positivity
/-!
# JSON values as numbers and as texts

`Number(v)` and `String(v)` of a value that `JSON.parse` can return. A
number is exact, and what a text is read as is rounded to a double
(`toDouble`). The one fact about rounding that the readers need is
`eq_of_toDouble_natCast`: a natural number that is read as something small
is read exactly. A value's text is read by others too, and
`eq_of_readNumber` says what the two readings of an integer numeral
have in common.
-/

namespace Ecommerce

namespace Js

/-- A number, zero without its sign. -/
inductive Numeric
  | nan
  | infinity (negative : Bool)
  | finite (value : ℚ)
deriving DecidableEq

/-- `-x`. -/
def Numeric.neg : Numeric → Numeric
  | nan => nan
  | infinity negative => infinity !negative
  | finite value => finite (-value)

/-! ## Rounding -/

/-- The nearest integer, the even one of two. -/
def roundHalfEven (x : ℚ) : ℤ :=
  if x - ⌊x⌋ < 1 / 2 then ⌊x⌋
  else if 1 / 2 < x - ⌊x⌋ then ⌊x⌋ + 1
  else if ⌊x⌋ % 2 = 0 then ⌊x⌋ else ⌊x⌋ + 1

/-- The distance of neighbouring doubles around a number. -/
def ulp (x : ℚ) : ℚ := 2 ^ (max (Int.log 2 |x|) (-1022) - 52)

/-- The double nearest to a number. -/
def toDouble (x : ℚ) : Numeric :=
  if x = 0 then .finite 0
  else if |roundHalfEven (x / ulp x) * ulp x| < 2 ^ 1024 then
    .finite (roundHalfEven (x / ulp x) * ulp x)
  else .infinity (decide (x < 0))

/-! ## From a text to a number -/

/-- `WhiteSpace` and `LineTerminator`. -/
def isWhitespace (c : Char) : Bool :=
  c.toNat ∈ [9, 10, 11, 12, 13, 32, 160, 5760, 8192, 8193, 8194, 8195, 8196, 8197, 8198, 8199, 8200,
    8201, 8202, 8232, 8233, 8239, 8287, 12288, 65279]

/-- A text without the white space around it. -/
def trim (cs : List Char) : List Char :=
  ((cs.dropWhile isWhitespace).reverse.dropWhile isWhitespace).reverse

/-- The value of a digit in a base up to 16. -/
def digitValue (base : ℕ) (c : Char) : Option ℕ :=
  let n :=
    if c.isDigit then c.toNat - 48
    else if 97 ≤ c.toNat then c.toNat - 87
    else if 65 ≤ c.toNat ∧ c.toNat ≤ 90 then c.toNat - 55 else base
  if n < base then some n else none

/-- The digits of a literal such as `0x1F`. -/
def readBase (base : ℕ) (cs : List Char) : Numeric :=
  match cs.mapM (digitValue base) with
  | some (d :: ds) => toDouble (ds.foldl (fun n d => base * n + d) d : ℕ)
  | _ => .nan

/-- `[+-]?[0-9]+`, as an integer. -/
def numeral : List Char → Option ℤ
  | '-' :: cs => if cs ≠ [] ∧ cs.all Char.isDigit then some (-Nat.ofDigitChars 10 cs 0) else none
  | '+' :: cs => if cs ≠ [] ∧ cs.all Char.isDigit then some (Nat.ofDigitChars 10 cs 0) else none
  | cs => if cs ≠ [] ∧ cs.all Char.isDigit then some (Nat.ofDigitChars 10 cs 0) else none

/-- What follows the digits of a decimal literal: an exponent, or nothing. -/
def readExponent : List Char → Option ℤ
  | [] => some 0
  | c :: cs => if c = 'e' ∨ c = 'E' then numeral cs else none

/-- The digits after the point of a decimal literal, and what follows them. -/
def readFraction : List Char → List Char × List Char
  | '.' :: cs => cs.span Char.isDigit
  | cs => ([], cs)

/-- A decimal literal without a sign. -/
def readDecimal (cs : List Char) : Numeric :=
  if cs = "Infinity".toList then .infinity false
  else
    let whole := cs.span Char.isDigit
    let fraction := readFraction whole.2
    let digits := whole.1 ++ fraction.1
    match readExponent fraction.2 with
    | some e =>
      if digits = [] then .nan
      else toDouble (Nat.ofDigitChars 10 digits 0 * 10 ^ (e - fraction.1.length))
    | none => .nan

/-- `StringToNumber`, of a trimmed text. -/
def readTrimmed : List Char → Numeric
  | [] => .finite 0
  | '-' :: cs => (readDecimal cs).neg
  | '+' :: cs => readDecimal cs
  | '0' :: c :: cs =>
    if c = 'x' ∨ c = 'X' then readBase 16 cs
    else if c = 'o' ∨ c = 'O' then readBase 8 cs
    else if c = 'b' ∨ c = 'B' then readBase 2 cs
    else readDecimal ('0' :: c :: cs)
  | cs => readDecimal cs

/-- `Number(text)`. -/
def readNumber (text : String) : Numeric := readTrimmed (trim text.toList)

/-! ## From a number to a text -/

/-- The digits `s` and the exponent `n` of the shortest decimal that is read as `x`: `k` digits
with a point after the first `n`. -/
def shortestOf (x : ℚ) (k : ℕ) (n : ℤ) : Option (ℕ × ℤ) :=
  let scaled := x / 10 ^ (n - k)
  let reads (s : ℕ) : Bool :=
    decide (10 ^ (k - 1) ≤ s ∧ s < 10 ^ k) && decide (toDouble (s * 10 ^ (n - k)) = .finite x)
  let below := ⌊scaled⌋₊
  if scaled - below ≤ 1 / 2 then
    if reads below then some (below, n) else if reads (below + 1) then some (below + 1, n) else none
  else
    if reads (below + 1) then some (below + 1, n) else if reads below then some (below, n) else none

/-- The shortest decimal of a positive double. -/
def shortest (x : ℚ) : Option (ℕ × ℤ) :=
  (List.range 17).findSome? fun k =>
    (shortestOf x (k + 1) (Int.log 10 x + 1)).or (shortestOf x (k + 1) (Int.log 10 x + 2))

/-- Digits with a point after the first `n`. -/
def layOut (digits : List Char) (n : ℤ) : List Char :=
  let k : ℤ := digits.length
  if k ≤ n ∧ n ≤ 21 then digits ++ List.replicate (n - k).toNat '0'
  else if 0 < n ∧ n ≤ 21 then digits.take n.toNat ++ '.' :: digits.drop n.toNat
  else if -6 < n ∧ n ≤ 0 then '0' :: '.' :: List.replicate (-n).toNat '0' ++ digits
  else
    let exponent := (if n - 1 < 0 then ['e', '-'] else ['e', '+']) ++ Nat.toDigits 10 (n - 1).natAbs
    match digits with
    | [d] => d :: exponent
    | d :: ds => d :: '.' :: ds ++ exponent
    | [] => exponent

/-- `String(x)` of a positive double. An integer below `2 ^ 53` is its own shortest decimal. -/
def positiveText (x : ℚ) : List Char :=
  if x.isInt ∧ x < 2 ^ 53 then Nat.toDigits 10 x.num.natAbs
  else
    match shortest x with
    | some (s, n) => layOut (Nat.toDigits 10 s) n
    | none => []

/-- `String(x)` of a double. -/
def numberText (x : ℚ) : String :=
  if x = 0 then "0"
  else String.ofList (if x < 0 then '-' :: positiveText (-x) else positiveText x)

/-! ## Values -/

/-- A value of `JSON.parse`. -/
inductive Value : Type
  | null
  | bool (b : Bool)
  | number (x : ℚ)
  | string (text : String)
  | array (items : List Value)
  | object (members : List (String × Value))

mutual

/-- `String(v)`, or `none` where it throws a `TypeError`: an object whose `toString` is no
function. -/
def Value.toText : Value → Option String
  | .null => some "null"
  | .bool b => some (if b then "true" else "false")
  | .number x => some (numberText x)
  | .string text => some text
  | .array items => (Value.elements items).map ",".intercalate
  | .object members =>
    if members.any fun m => m.1 = "toString" then none else some "[object Object]"

/-- The texts `Array.prototype.join` joins: `null` leaves nothing. -/
def Value.elements : List Value → Option (List String)
  | [] => some []
  | .null :: rest => (Value.elements rest).map ("" :: ·)
  | v :: rest => do
    let text ← v.toText
    let texts ← Value.elements rest
    pure (text :: texts)

end

/-- `Number(v)`, or `none` where it throws a `TypeError`. -/
def Value.toNumber : Value → Option Numeric
  | .null => some (.finite 0)
  | .bool b => some (.finite (if b then 1 else 0))
  | .number x => some (.finite x)
  | .string text => some (readNumber text)
  | v => v.toText.map readNumber

/-! ## Integers -/

theorem roundHalfEven_intCast (n : ℤ) : roundHalfEven n = n := by
  rw [roundHalfEven, Int.floor_intCast, sub_self, if_pos (by norm_num)]

theorem floor_le_roundHalfEven (x : ℚ) : ⌊x⌋ ≤ roundHalfEven x := by
  rw [roundHalfEven]
  split_ifs <;> omega

/-- What is rounded to an integer at least as large as a given one is not smaller. -/
theorem le_roundHalfEven {n : ℤ} {x : ℚ} (h : (n : ℚ) ≤ x) : n ≤ roundHalfEven x :=
  (Int.le_floor.mpr h).trans (floor_le_roundHalfEven x)

section Doubles

variable {n : ℕ}

/-- The distance of the doubles around a natural number. -/
theorem ulp_natCast (n : ℕ) : ulp n = 2 ^ ((Nat.log 2 n : ℤ) - 52) := by
  have hlog : Int.log 2 |(n : ℚ)| = Nat.log 2 n := by
    rw [Nat.abs_cast, Int.log_natCast]
  rw [ulp, hlog, max_eq_left (by omega)]

/-- A natural number below `2 ^ 53` is a double. -/
theorem toDouble_natCast (h : n < 2 ^ 53) : toDouble n = .finite n := by
  by_cases hn : n = 0
  · rw [hn, toDouble, if_pos Nat.cast_zero, Nat.cast_zero]
  · have hlog : Nat.log 2 n ≤ 52 := Nat.le_of_lt_succ (Nat.log_lt_of_lt_pow hn h)
    have hulp : ulp n = (2 ^ (52 - Nat.log 2 n) : ℚ)⁻¹ := by
      rw [ulp_natCast, ← zpow_natCast, ← zpow_neg]
      congr 1
      omega
    have hne : (2 ^ (52 - Nat.log 2 n) : ℚ) ≠ 0 := by positivity
    -- In units of its neighbours' distance it is an integer, which rounding leaves alone.
    have hunits : (n : ℚ) / ulp n = ((n * 2 ^ (52 - Nat.log 2 n) : ℕ) : ℤ) := by
      rw [hulp, div_inv_eq_mul]
      push_cast
      rfl
    have hround : (roundHalfEven ((n : ℚ) / ulp n) : ℚ) * ulp n = n := by
      rw [hunits, roundHalfEven_intCast, hulp]
      push_cast
      rw [mul_assoc, mul_inv_cancel₀ hne, mul_one]
    have hlt : |(n : ℚ)| < 2 ^ 1024 := by
      rw [Nat.abs_cast]
      exact_mod_cast h.trans (Nat.pow_lt_pow_right (by decide) (by decide))
    rw [toDouble, if_neg (Nat.cast_ne_zero.mpr hn), hround, if_pos hlt]

/-- Any other is rounded to something as large. -/
theorem le_of_toDouble_natCast (h : 2 ^ 53 ≤ n) {x : ℚ} (hx : toDouble n = .finite x) :
    2 ^ 53 ≤ x := by
  have hn : n ≠ 0 := by
    rintro rfl
    exact absurd h (by decide)
  have hlog : 53 ≤ Nat.log 2 n := Nat.le_log_of_pow_le (by decide) h
  have hpos : 0 < ulp (n : ℚ) := by
    rw [ulp]
    exact zpow_pos (by norm_num) _
  -- The number is at least `2 ^ 52` of its neighbours' distances.
  have hunits : ((2 ^ 52 : ℤ) : ℚ) ≤ (n : ℚ) / ulp n := by
    rw [le_div_iff₀ hpos, ulp_natCast]
    have hpow : ((2 ^ 52 : ℤ) : ℚ) * 2 ^ ((Nat.log 2 n : ℤ) - 52) = 2 ^ Nat.log 2 n := by
      have hcast : ((2 ^ 52 : ℤ) : ℚ) = 2 ^ (52 : ℤ) := by norm_num
      rw [hcast, ← zpow_natCast, ← zpow_add₀ two_ne_zero]
      congr 1
      omega
    rw [hpow]
    exact_mod_cast Nat.pow_log_le_self 2 hn
  have hround : ((2 ^ 52 : ℤ) : ℚ) ≤ roundHalfEven ((n : ℚ) / ulp n) := by
    exact_mod_cast le_roundHalfEven hunits
  rw [toDouble, if_neg (Nat.cast_ne_zero.mpr hn)] at hx
  split at hx
  · obtain rfl := Numeric.finite.inj hx
    have hulp : (2 : ℚ) ≤ ulp n := by
      rw [ulp_natCast]
      calc (2 : ℚ) = 2 ^ (1 : ℤ) := (zpow_one 2).symm
        _ ≤ _ := zpow_le_zpow_right₀ (by norm_num) (by omega)
    calc (2 : ℚ) ^ 53 = ((2 ^ 52 : ℤ) : ℚ) * 2 := by norm_num
      _ ≤ _ := mul_le_mul hround hulp (by norm_num) (le_trans (by norm_num) hround)
  · cases hx

/-- **What is read as something small is read exactly.** -/
theorem eq_of_toDouble_natCast {x : ℚ} (hx : toDouble n = .finite x) (hsmall : x < 2 ^ 53) :
    (n : ℚ) = x := by
  rcases Nat.lt_or_ge n (2 ^ 53) with h | h
  · rw [toDouble_natCast h] at hx
    exact Numeric.finite.inj hx
  · exact absurd (le_of_toDouble_natCast h hx) (not_le.mpr hsmall)

end Doubles

/-! ## Integer numerals -/

section Numerals

variable {c : Char} {cs : List Char}

theorem not_isWhitespace_of_isDigit (h : c.isDigit) : isWhitespace c = false := by
  have hc : 48 ≤ c.toNat ∧ c.toNat ≤ 57 := Char.isDigit_iff_toNat.mp h
  rw [isWhitespace, decide_eq_false_iff_not]
  simp only [List.mem_cons, List.not_mem_nil, or_false]
  omega

theorem ne_of_isDigit {d : Char} (h : c.isDigit) (hd : ¬ d.isDigit) : c ≠ d := by
  rintro rfl
  exact hd h

/-- Nothing is trimmed of a text without white space. -/
theorem trim_eq_self (h : ∀ c ∈ cs, isWhitespace c = false) : trim cs = cs := by
  have hdrop : ∀ ds : List Char, (∀ c ∈ ds, isWhitespace c = false) →
      ds.dropWhile isWhitespace = ds := by
    intro ds hds
    cases ds with
    | nil => rfl
    | cons d ds => exact List.dropWhile_cons_of_neg (by simp [hds d List.mem_cons_self])
  rw [trim, hdrop cs h, hdrop cs.reverse fun c hc => h c (List.mem_reverse.mp hc),
    List.reverse_reverse]

/-- Digits alone are a decimal literal. -/
theorem readDecimal_digits (hne : cs ≠ []) (h : ∀ c ∈ cs, c.isDigit) :
    readDecimal cs = toDouble (Nat.ofDigitChars 10 cs 0 : ℕ) := by
  have hinfinity : cs ≠ "Infinity".toList := by
    rintro rfl
    exact absurd (h 'I' (by decide)) (by decide)
  have hspan : cs.span Char.isDigit = (cs, []) := by
    rw [List.span_eq_takeWhile_dropWhile, List.takeWhile_eq_self_iff.mpr h,
      List.dropWhile_eq_nil_iff.mpr h]
  rw [readDecimal, if_neg hinfinity, hspan]
  change (if cs ++ [] = [] then _ else
    toDouble (Nat.ofDigitChars 10 (cs ++ []) 0 * 10 ^ (0 : ℤ))) = _
  rw [List.append_nil, if_neg hne, zpow_zero, mul_one]

/-- And are read as one. -/
theorem readTrimmed_digits (hne : cs ≠ []) (h : ∀ c ∈ cs, c.isDigit) :
    readTrimmed cs = toDouble (Nat.ofDigitChars 10 cs 0 : ℕ) := by
  rw [← readDecimal_digits hne h]
  unfold readTrimmed
  split
  · exact absurd rfl hne
  · exact absurd (h _ List.mem_cons_self) (by decide)
  · exact absurd (h _ List.mem_cons_self) (by decide)
  · -- The character after a zero is a digit, and no base's letter.
    rename_i c cs
    have hc := h c (List.mem_cons_of_mem _ List.mem_cons_self)
    have hletter : ∀ d : Char, ¬ d.isDigit → c ≠ d := fun d hd => ne_of_isDigit hc hd
    rw [if_neg (by simp [hletter]), if_neg (by simp [hletter]), if_neg (by simp [hletter])]
  · rfl

/-- The sign of a numeral, and its digits. -/
inductive Signed : List Char → ℤ → Prop
  | negative {ds : List Char} (hne : ds ≠ []) (h : ∀ c ∈ ds, c.isDigit) :
    Signed ('-' :: ds) (-Nat.ofDigitChars 10 ds 0)
  | positive {ds : List Char} (hne : ds ≠ []) (h : ∀ c ∈ ds, c.isDigit) :
    Signed ('+' :: ds) (Nat.ofDigitChars 10 ds 0)
  | unsigned {ds : List Char} (hne : ds ≠ []) (h : ∀ c ∈ ds, c.isDigit) :
    Signed ds (Nat.ofDigitChars 10 ds 0)

theorem signed_of_numeral {m : ℤ} (h : numeral cs = some m) : Signed cs m := by
  unfold numeral at h
  split at h
  all_goals
    split at h
    · rename_i hdigits
      obtain rfl := Option.some.inj h
      first
        | exact .negative hdigits.1 (List.all_eq_true.mp hdigits.2)
        | exact .positive hdigits.1 (List.all_eq_true.mp hdigits.2)
        | exact .unsigned hdigits.1 (List.all_eq_true.mp hdigits.2)
    · cases h

/-- A numeral has no white space in it. -/
theorem Signed.trim_eq {m : ℤ} (h : Signed cs m) : trim cs = cs := by
  refine trim_eq_self fun c hc => ?_
  cases h with
  | negative hne h =>
    rcases List.mem_cons.mp hc with rfl | hc
    · decide
    · exact not_isWhitespace_of_isDigit (h c hc)
  | positive hne h =>
    rcases List.mem_cons.mp hc with rfl | hc
    · decide
    · exact not_isWhitespace_of_isDigit (h c hc)
  | unsigned hne h => exact not_isWhitespace_of_isDigit (h c hc)

/-- **An integer numeral that is read as something small is read as itself.** -/
theorem eq_of_readNumber {text : String} {m : ℤ} (hm : numeral text.toList = some m) {x : ℚ}
    (hx : readNumber text = .finite x) (hsmall : |x| < 2 ^ 53) : (m : ℚ) = x := by
  have hsigned := signed_of_numeral hm
  rw [readNumber, hsigned.trim_eq] at hx
  generalize text.toList = cs at hsigned hx
  cases hsigned with
  | @negative ds hne h =>
    change (readDecimal ds).neg = .finite x at hx
    rw [readDecimal_digits hne h] at hx
    cases hread : toDouble (Nat.ofDigitChars 10 ds 0 : ℕ) with
    | finite y =>
      rw [hread] at hx
      obtain rfl := Numeric.finite.inj hx
      rw [abs_neg] at hsmall
      have heq := eq_of_toDouble_natCast hread ((le_abs_self y).trans_lt hsmall)
      push_cast
      rw [heq]
    | _ => rw [hread] at hx; cases hx
  | @positive ds hne h =>
    change readDecimal ds = .finite x at hx
    rw [readDecimal_digits hne h] at hx
    exact_mod_cast eq_of_toDouble_natCast hx ((le_abs_self x).trans_lt hsmall)
  | unsigned hne h =>
    rw [readTrimmed_digits hne h] at hx
    exact_mod_cast eq_of_toDouble_natCast hx ((le_abs_self x).trans_lt hsmall)

theorem numeral_digits (hne : cs ≠ []) (h : ∀ c ∈ cs, c.isDigit) :
    numeral cs = some ((Nat.ofDigitChars 10 cs 0 : ℕ) : ℤ) := by
  unfold numeral
  split
  · exact absurd (h _ List.mem_cons_self) (by decide)
  · exact absurd (h _ List.mem_cons_self) (by decide)
  · rw [if_pos ⟨hne, List.all_eq_true.mpr h⟩]

/-- **The text of a positive integer is its numeral.** -/
theorem numeral_numberText {n : ℤ} (hpos : 0 < n) (hsmall : n < 2 ^ 53) :
    numeral (numberText n).toList = some n := by
  have hcast : (0 : ℚ) < n := by exact_mod_cast hpos
  have hint : (n : ℚ).isInt ∧ (n : ℚ) < 2 ^ 53 := ⟨by simp [Rat.isInt], by exact_mod_cast hsmall⟩
  rw [numberText, if_neg hcast.ne', if_neg hcast.not_gt, positiveText, if_pos hint,
    String.toList_ofList, Rat.num_intCast]
  rw [numeral_digits Nat.toDigits_ne_nil fun c hc =>
    Nat.isDigit_of_mem_toDigits (by decide) (by decide) hc, Nat.ofDigitChars_ten_toDigits,
    Int.natAbs_of_nonneg hpos.le]

end Numerals

end Js

end Ecommerce
