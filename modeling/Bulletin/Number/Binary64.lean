/-! # Numbers in double precision

A number in double precision is held exactly: not a number, an infinity, or `± m · 2 ^ e` with
`m < 2 ^ 53` and `-1074 ≤ e ≤ 971`, where `m ≥ 2 ^ 52` unless `e = -1074`. Reading a decimal rounds
to the nearest such number, a tie going to the even one. Writing one takes the fewest decimal
digits that read back, of those the nearest. All of it is arithmetic on whole numbers. -/

namespace Bulletin.Number

/-- A number in double precision. -/
inductive Binary64 where
  | nan
  | infinite (negative : Bool)
  | finite (negative : Bool) (mantissa : Nat) (exponent : Int)
  deriving DecidableEq, Repr, Inhabited

namespace Binary64

/-- `n / d` rounded to a whole number, a tie to the even one. -/
def roundDiv (n d : Nat) : Nat :=
  let q := n / d
  let r := n % d
  if 2 * r > d || (2 * r == d && q % 2 == 1) then q + 1 else q

/-- `b ^ max e 0` and `b ^ max (-e) 0`: the two sides of `b ^ e` as a quotient. -/
def powers (b : Nat) (e : Int) : Nat × Nat := (b.pow e.toNat, b.pow (-e).toNat)

/-- The least number of 53 bits. -/
def leastFull : Nat := Nat.pow 2 52

/-- `n / (d · 2 ^ e)` rounded down. -/
def scaled (n d : Nat) (e : Int) : Nat :=
  let (up, down) := powers 2 e
  n * down / (d * up)

/-- The number nearest to `n / d`. -/
def ofRatio (negative : Bool) (n d : Nat) : Binary64 :=
  if n = 0 then .finite negative 0 (-1074)
  else
    let guess : Int := (n.log2 : Int) - d.log2 - 52
    let e := if scaled n d guess < leastFull then guess - 1 else guess
    let e := if e < -1074 then -1074 else e
    let (up, down) := powers 2 e
    let m := roundDiv (n * down) (d * up)
    let (m, e) := if m = 2 * leastFull then (leastFull, e + 1) else (m, e)
    if e > 971 then .infinite negative else .finite negative m e

/-- The number of decimal digits of a number; none for zero. -/
def digitCount (n : Nat) : Nat := if n = 0 then 0 else (Nat.toDigits 10 n).length

/-- The number nearest to `± digits · 10 ^ e`. -/
def ofDecimal (negative : Bool) (digits : Nat) (e : Int) : Binary64 :=
  let size : Int := digitCount digits + e
  if digits = 0 || size < -400 then .finite negative 0 (-1074)
  else if size > 400 then .infinite negative
  else
    let (up, down) := powers 10 e
    ofRatio negative (digits * up) down

/-- The whole number before the point, none if there is none. -/
def truncate? : Binary64 → Option Int
  | .finite negative m e =>
    let (up, down) := powers 2 e
    let n : Int := (m * up / down : Nat)
    some (if negative then -n else n)
  | _ => none

/-- A finite number as a quotient of whole numbers. -/
def ratio? : Binary64 → Option (Int × Nat)
  | .finite negative m e =>
    let (up, down) := powers 2 e
    let n : Int := (m * up : Nat)
    some (if negative then -n else n, down)
  | _ => none

/-- Whether a number is zero, of either sign. -/
def isZero : Binary64 → Bool
  | .finite _ 0 _ => true
  | _ => false

/-- Equality of numbers: the zeros are equal, and what is no number equals nothing. -/
def equals : Binary64 → Binary64 → Bool
  | .nan, _ => false
  | _, .nan => false
  | x, y => x == y || (x.isZero && y.isZero)

/-- Equality with a whole number. -/
def equalsInt (x : Binary64) (n : Int) : Bool :=
  match x.ratio? with
  | some (a, b) => a == n * b
  | none => false

/-- Whether a number is at least a whole number. -/
def atLeast (x : Binary64) (n : Int) : Bool :=
  match x with
  | .nan => false
  | .infinite negative => !negative
  | .finite .. => (x.ratio?.map fun (a, b) => decide (n * b ≤ a)).getD false

/-- Whether a number is at most a whole number. -/
def atMost (x : Binary64) (n : Int) : Bool :=
  match x with
  | .nan => false
  | .infinite negative => negative
  | .finite .. => (x.ratio?.map fun (a, b) => decide (a ≤ n * b)).getD false

/-! ### The shortest decimal -/

/-- The exponent of the first decimal digit of `m · 2 ^ e`, for `m > 0`. -/
def leadingExponent (m : Nat) (e : Int) : Int :=
  let (up, down) := powers 2 e
  (digitCount (m * up * Nat.pow 10 330 / down) : Int) - 331

/-- The points of the grid of step `10 ^ k` next to `m · 2 ^ e` that read back as it, nearest
first. The reals that read back reach half a step of the binary grid to either side, less far below
a power of two, and contain their ends if `m` is even. -/
def gridHits (m : Nat) (e k : Int) : List Nat :=
  let (up, down) := powers 2 (e - 2)
  let (tens, tenths) := powers 10 k
  let center := 4 * m * up * tenths
  let high := (4 * m + 2) * up * tenths
  let low := (if m = leastFull && e > -1074 then 4 * m - 1 else 4 * m - 2) * up * tenths
  let unit := tens * down
  let inside := fun c : Nat =>
    if m % 2 = 0 then low ≤ c * unit && c * unit ≤ high else low < c * unit && c * unit < high
  let below := center / unit
  let above := below + 1
  let first := fun c : Nat => if c = below then center - c * unit else c * unit - center
  let ordered :=
    if first below < first above || (first below == first above && below % 2 == 0) then
      [below, above]
    else [above, below]
  ordered.filter inside

/-- The fewest digits, at least `n`, that read back as `m · 2 ^ e`, and the exponent of the step
of their grid. -/
def shortestFrom (m : Nat) (e lead : Int) (n : Nat) : Nat → Nat × Int
  | 0 => (m, 0)
  | fuel + 1 =>
    let k := lead - n + 1
    match gridHits m e k with
    | c :: _ => (c, k)
    | [] => shortestFrom m e lead (n + 1) fuel

/-- The shortest decimal digits of `m · 2 ^ e`, for `m > 0`, and the exponent of the last one. -/
def shortest (m : Nat) (e : Int) : Nat × Int := shortestFrom m e (leadingExponent m e) 1 17

/-- How many decimal zeros end a number, at most `fuel`, and the number without them. -/
def dropZeros (n : Nat) (k : Int) : Nat → Nat × Int
  | 0 => (n, k)
  | fuel + 1 => if n ≠ 0 && n % 10 == 0 then dropZeros (n / 10) (k + 1) fuel else (n, k)

/-- The written form: positional from `10 ^ -4` up to below `10 ^ 16`, with a point and at least
one digit after it, else one digit before the point and an exponent of at least two digits. -/
def decimalText (digits : Nat) (k : Int) : String :=
  let (digits, k) := dropZeros digits k 20
  let ds := Nat.toDigits 10 digits
  let lead : Int := ds.length - 1 + k
  if -4 ≤ lead && lead < 16 then
    if k ≥ 0 then .ofList (ds ++ List.replicate k.toNat '0' ++ ['.', '0'])
    else if lead ≥ 0 then
      let whole := lead.toNat + 1
      .ofList (ds.take whole ++ '.' :: ds.drop whole)
    else .ofList ('0' :: '.' :: List.replicate ((-lead).toNat - 1) '0' ++ ds)
  else
    let point := if ds.length > 1 then '.' :: ds.drop 1 else []
    let power := Nat.toDigits 10 lead.natAbs
    let power := if power.length < 2 then '0' :: power else power
    .ofList (ds.take 1 ++ point ++ 'e' :: (if lead < 0 then '-' else '+') :: power)

/-- The written form of a number, `infinity` and `nan` being the words for what is not finite. -/
def toText (infinity nan : String) : Binary64 → String
  | .nan => nan
  | .infinite negative => (if negative then "-" else "") ++ infinity
  | .finite negative m e =>
    (if negative then "-" else "") ++
      if m = 0 then "0.0" else let (digits, k) := shortest m e; decimalText digits k

end Binary64

end Bulletin.Number
