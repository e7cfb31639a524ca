/-!
# Binary64 numbers

Double-precision floating-point numbers as exact values `m × 2^q`, with the
rounding rule of the format (to nearest, ties to an even significand) written
over rationals. Arithmetic on them is exact arithmetic followed by that
rounding, which is what the format promises for a product or a quotient.

The shortest decimal text of a number is found by trying one, two, … digits:
the first precision at which a decimal lies within the number's rounding
interval wins, and of two such decimals the nearer one (an exact tie goes to
the even one). The interval includes its ends when the significand is even.
-/

namespace KernelLaunch

/-- A binary64 number: a signed finite value `m × 2^q`, or an infinity. -/
inductive Binary64 where
  | finite (neg : Bool) (m : Nat) (q : Int)
  | infinite (neg : Bool)
  deriving Repr, Inhabited

namespace Binary64

/-- Two to an integer power, as a numerator and a denominator. -/
def pow2Ratio (e : Int) : Nat × Nat :=
  if 0 ≤ e then (Nat.pow 2 e.toNat, 1) else (1, Nat.pow 2 (-e).toNat)

/-- The quotient of `a` by `b` rounded to nearest, ties to even. -/
def roundHalfEven (a b : Nat) : Nat :=
  let q := a / b
  let r := a % b
  if 2 * r > b || (2 * r == b && q % 2 == 1) then q + 1 else q

/-- `⌊log₂ (num / den)⌋` for positive `num` and `den`. -/
def floorLog2 (num den : Nat) : Int :=
  let t : Int := (num.log2 : Int) - (den.log2 : Int)
  let (a, b) := pow2Ratio t
  -- num / den ≥ 2^t iff num * b ≥ a * den
  if num * b ≥ a * den then t else t - 1

/-- The positive rational `num / den` rounded to the nearest binary64 number. -/
def ofRatio (neg : Bool) (num den : Nat) : Binary64 :=
  if num = 0 || den = 0 then .finite neg 0 (-1074)
  else
    let e0 := floorLog2 num den - 52
    let e := if e0 < -1074 then -1074 else e0
    let (a, b) := pow2Ratio (-e)
    let m := roundHalfEven (num * a) (den * b)
    let (m, e) := if m = Nat.pow 2 53 then (Nat.pow 2 52, e + 1) else (m, e)
    if e > 971 then .infinite neg else .finite neg m e

/-- A natural number rounded to the nearest binary64 number. -/
def ofNat (n : Nat) : Binary64 := ofRatio false n 1

/-- The exact value of a finite number's magnitude, as a numerator and a denominator. -/
def ratio (m : Nat) (q : Int) : Nat × Nat :=
  let (a, b) := pow2Ratio q
  (m * a, b)

/-- Whether the number is an infinity. -/
def isInfinite : Binary64 → Bool
  | .infinite _ => true
  | _ => false

/-- Whether the number is a zero. -/
def isZero : Binary64 → Bool
  | .finite _ 0 _ => true
  | _ => false

/-- The number with its sign flipped. -/
def negate : Binary64 → Binary64
  | .finite s m q => .finite (!s) m q
  | .infinite s => .infinite (!s)

/-- The rounded product. -/
def mul : Binary64 → Binary64 → Binary64
  | .finite s m q, .finite t n r =>
      let (a, b) := ratio (m * n) (q + r)
      ofRatio (s != t) a b
  | x, y =>
      let s := match x with | .finite s _ _ | .infinite s => s
      let t := match y with | .finite t _ _ | .infinite t => t
      .infinite (s != t)

/-- The rounded quotient by a nonzero finite divisor. -/
def div : Binary64 → Binary64 → Binary64
  | .finite s m q, .finite t n r =>
      let (a, b) := ratio m q
      let (c, d) := ratio n r
      ofRatio (s != t) (a * d) (b * c)
  | .infinite s, .finite t _ _ => .infinite (s != t)
  | .finite s _ _, .infinite t => .finite (s != t) 0 (-1074)
  | .infinite s, .infinite t => .infinite (s != t)

/-- The rounded sum of two finite numbers; an exact zero sum is a positive
zero, and a sum with an infinity is that infinity. -/
def add : Binary64 → Binary64 → Binary64
  | .finite s m q, .finite t n r =>
      let (a, b) := ratio m q
      let (c, d) := ratio n r
      let signed (neg : Bool) (k : Nat) : Int := if neg then -(k : Int) else (k : Int)
      let x := signed s (a * d) + signed t (c * b)
      ofRatio (x < 0) x.natAbs (b * d)
  | .infinite s, _ => .infinite s
  | _, .infinite t => .infinite t

/-- Whether one finite number is below another; an infinity is below nothing
and above every finite number of its sign. -/
def lt : Binary64 → Binary64 → Bool
  | .finite s m q, .finite t n r =>
      let (a, b) := ratio m q
      let (c, d) := ratio n r
      let signed (neg : Bool) (k : Nat) : Int := if neg then -(k : Int) else (k : Int)
      signed s (a * d) < signed t (c * b)
  | .finite _ _ _, .infinite t => !t
  | .infinite s, .finite _ _ _ => s
  | .infinite _, .infinite _ => false

/-- Ten to the power `k`, rounded. -/
def pow10 (k : Nat) : Binary64 := ofNat (Nat.pow 10 k)

/-- The number of decimal digits of a positive number. -/
def digitCount (n : Nat) : Nat := (Nat.toDigits 10 n).length

/-- `⌊log₁₀ (num / den)⌋` for positive `num` and `den`. -/
def floorLog10 (num den : Nat) : Int :=
  if num ≥ den then ((digitCount (num / den) : Int) - 1)
  else
    -- the least j with num * 10^j ≥ den
    let j := (List.range (digitCount den + 1)).find? (fun j => num * Nat.pow 10 j ≥ den)
    Int.neg (j.getD 0 : Int)

/-- Ten to an integer power, as a numerator and a denominator. -/
def pow10Ratio (k : Int) : Nat × Nat :=
  if 0 ≤ k then (Nat.pow 10 k.toNat, 1) else (1, Nat.pow 10 (-k).toNat)

/-- The shortest decimal `d × 10^k` that rounds back to `m × 2^q` (with `m`
positive), nearest to it among the shortest. -/
def shortest (m : Nat) (q : Int) : Nat × Int :=
  -- all values in units of 2^(q-2): the number is 4m, the interval ends
  -- are 4m + 2 above and 4m - 2 below (4m - 1 at a power of two)
  let (ua, ub) := pow2Ratio (q - 2)
  let hi := 4 * m + 2
  let lo := if m = Nat.pow 2 52 && q > -1074 then 4 * m - 1 else 4 * m - 2
  let inclusive := m % 2 == 0
  -- value of c × 10^k compared with x units of 2^(q-2): c·10^k vs x·ua/ub
  let cmp (c : Nat) (k : Int) (x : Nat) : Ordering :=
    let (pa, pb) := pow10Ratio k
    compare (c * pa * ub) (x * ua * pb)
  let within (c : Nat) (k : Int) : Bool :=
    match cmp c k lo, cmp c k hi with
    | .lt, _ => false
    | _, .gt => false
    | .eq, _ => inclusive
    | _, .eq => inclusive
    | _, _ => true
  let (vn, vd) := ratio m q
  let e := floorLog10 vn vd
  let attempt (n : Nat) : Option (Nat × Int) :=
    let k := e - (n : Int) + 1
    let (pa, pb) := pow10Ratio k
    -- d = ⌊v / 10^k⌋
    let d := (vn * pb) / (vd * pa)
    let cands := [d, d + 1].filter (fun c => within c k)
    -- distance of c × 10^k from the value, scaled by vd * pb
    let dist (c : Nat) : Nat :=
      let x := c * pa * vd
      let y := vn * pb
      if x ≥ y then x - y else y - x
    match cands with
    | [c] => some (c, k)
    | [c₁, c₂] =>
        if dist c₁ < dist c₂ then some (c₁, k)
        else if dist c₂ < dist c₁ then some (c₂, k)
        else if c₁ % 2 == 0 then some (c₁, k) else some (c₂, k)
    | _ => none
  let found := (List.range 17).findSome? (fun i => attempt (i + 1))
  let (c, k) := found.getD (m, q)
  -- strip trailing zeros
  let rec strip (fuel : Nat) (c : Nat) (k : Int) : Nat × Int :=
    match fuel with
    | 0 => (c, k)
    | fuel + 1 => if c % 10 == 0 && c > 0 then strip fuel (c / 10) (k + 1) else (c, k)
  strip 20 c k

/-- The exponent suffix: `e`, the sign of the decimal exponent (`+` or `-`)
and its digits. -/
def exponentText (x : Int) : String :=
  if 0 ≤ x then "e+" ++ toString x else "e" ++ toString x

/-- The shortest text of a finite number: positional with `.0` when the
decimal point falls within the first sixteen places or up to five zeros after
it, scientific (`1e+30`, `1.5e-7`) otherwise. -/
def text : Binary64 → String
  | .infinite neg => if neg then "-inf" else "inf"
  | .finite neg 0 _ => if neg then "-0.0" else "0.0"
  | .finite neg m q =>
      let (c, k) := shortest m q
      let s := toString c
      let len : Int := s.length
      let kk := len + k
      let sign := if neg then "-" else ""
      let body :=
        if 0 ≤ k && kk ≤ 16 then
          s ++ String.ofList (List.replicate k.toNat '0') ++ ".0"
        else if 0 < kk && kk ≤ 16 then
          String.ofList (s.toList.take kk.toNat) ++ "." ++ String.ofList (s.toList.drop kk.toNat)
        else if -5 < kk && kk ≤ 0 then
          "0." ++ String.ofList (List.replicate (-kk).toNat '0') ++ s
        else if len = 1 then
          s ++ exponentText (kk - 1)
        else
          String.ofList (s.toList.take 1) ++ "." ++ String.ofList (s.toList.drop 1) ++
            exponentText (kk - 1)
      sign ++ body

end Binary64

end KernelLaunch
