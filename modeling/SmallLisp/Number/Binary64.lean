/-! Binary floating point of 64 bits. The least positive number is `2⁻¹⁰⁷⁴`, and every
finite number is a multiple of it, so a magnitude is held as a count of these units.
Order, sum and remainder are then those of the integers, and each operation rounds its
exact result once, to the nearest number, ties to even. -/
namespace SmallLisp

namespace Binary64

/-- Units in one. -/
def one : Nat := Nat.pow 2 1074

/-- The distance between neighbours at `n` units: 53 significant bits are kept. -/
def spacing (n : Nat) : Nat := Nat.pow 2 (n.log2 - 52)

/-- The counts of units that are magnitudes of finite numbers. -/
def Magnitude (n : Nat) : Prop := n < Nat.pow 2 2098 ∧ n % spacing n = 0

instance (n : Nat) : Decidable (Magnitude n) := inferInstanceAs (Decidable (_ ∧ _))

/-- The nearest integer to a quotient; of two, the even one. -/
def nearest (num den : Nat) : Nat :=
  let q := num / den
  let twice := 2 * (num % den)
  if twice < den ∨ (twice = den ∧ q % 2 = 0) then q else q + 1

end Binary64

/-- Not-a-number has neither sign nor payload, and zero has a sign. -/
inductive Binary64 where
  | nan
  | infinite (negative : Bool)
  | finite (negative : Bool) (units : Nat) (exact : Binary64.Magnitude units)
  deriving DecidableEq

namespace Binary64

/-- A count of units that is no magnitude is one beyond the largest. -/
def ofUnits (negative : Bool) (n : Nat) : Binary64 :=
  if h : Magnitude n then .finite negative n h else .infinite negative

/-- The number nearest to `num / den` units. -/
def round (negative : Bool) (num den : Nat) : Binary64 :=
  let step := spacing (num / den)
  ofUnits negative (nearest num (den * step) * step)

def zero (negative : Bool) : Binary64 := ofUnits negative 0

def ofRatio (negative : Bool) (num den : Nat) : Binary64 := round negative (num * one) den

def ofInt (i : Int) : Binary64 := ofRatio (i < 0) i.natAbs 1

/-- The number nearest to `digits * 10 ^ exponent`. -/
def ofDecimal (negative : Bool) (digits : Nat) (exponent : Int) : Binary64 :=
  match exponent with
  | .ofNat e => ofRatio negative (digits * Nat.pow 10 e) 1
  | .negSucc e => ofRatio negative digits (Nat.pow 10 (e + 1))

def isNaN : Binary64 → Bool
  | .nan => true
  | _ => false

def isZero : Binary64 → Bool
  | .finite _ n _ => n = 0
  | _ => false

def isInfinite : Binary64 → Bool
  | .infinite _ => true
  | _ => false

/-- Whether the number has a minus sign, also as a zero or an infinity. -/
def sign : Binary64 → Bool
  | .nan => false
  | .infinite s => s
  | .finite s _ _ => s

def signed (negative : Bool) (n : Nat) : Int := if negative then -n else n

def neg : Binary64 → Binary64
  | .nan => .nan
  | .infinite s => .infinite !s
  | .finite s n h => .finite (!s) n h

/-- A sum of opposite numbers is the positive zero. -/
def add : Binary64 → Binary64 → Binary64
  | .nan, _ | _, .nan => .nan
  | .infinite s, .infinite t => if s = t then .infinite s else .nan
  | .infinite s, _ | _, .infinite s => .infinite s
  | .finite s m _, .finite t n _ =>
    let sum := signed s m + signed t n
    if sum = 0 then zero (s && t) else round (sum < 0) sum.natAbs 1

def sub (a b : Binary64) : Binary64 := add a b.neg

def mul : Binary64 → Binary64 → Binary64
  | .nan, _ | _, .nan => .nan
  | .infinite s, .infinite t => .infinite (s != t)
  | .infinite s, .finite t n _ | .finite t n _, .infinite s =>
    if n = 0 then .nan else .infinite (s != t)
  | .finite s m _, .finite t n _ => round (s != t) (m * n) one

/-- The quotient by anything but zero. -/
def div? : Binary64 → Binary64 → Option Binary64
  | a, .finite t n _ =>
    if n = 0 then none
    else
      match a with
      | .nan => some .nan
      | .infinite s => some (.infinite (s != t))
      | .finite s m _ => some (round (s != t) (m * one) n)
  | .finite s _ _, .infinite t => some (zero (s != t))
  | _, _ => some .nan

/-- The remainder of the division rounded toward zero, which has the dividend's sign
and needs no rounding. An infinity has none, and nothing has one by zero. -/
def rem? : Binary64 → Binary64 → Option Binary64
  | .nan, _ | _, .nan => some .nan
  | .infinite _, _ => none
  | .finite s m h, .infinite _ => some (.finite s m h)
  | .finite s m _, .finite _ n _ => if n = 0 then none else some (ofUnits s (m % n))

/-- An integer that orders the numbers; both zeros have the same. -/
def rank? : Binary64 → Option Int
  | .nan => none
  | .infinite s => some (signed s (Nat.pow 2 2098))
  | .finite s n _ => some (signed s n)

def equal (a b : Binary64) : Bool :=
  match a.rank?, b.rank? with
  | some i, some j => i = j
  | _, _ => false

/-- Not-a-number compares with nothing, itself included. -/
def order? (a b : Binary64) : Option Ordering :=
  match a.rank?, b.rank? with
  | some i, some j => some (compare i j)
  | _, _ => none

def largest : Binary64 := ofUnits false ((Nat.pow 2 53 - 1) * Nat.pow 2 2045)

/-- The numbers nearest to `π` and to `e`. -/
def pi : Binary64 := ofRatio false 884279719003555 (Nat.pow 2 48)
def euler : Binary64 := ofRatio false 6121026514868073 (Nat.pow 2 51)

end Binary64

end SmallLisp
