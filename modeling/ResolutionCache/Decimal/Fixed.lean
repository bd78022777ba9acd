/-!
# Decimals with a fixed number of places

A finite binary floating-point number is a whole number times a power of two, so its decimal form
with a given number of places is a matter of rounding one exact quotient. A quotient halfway
between two whole numbers goes to the even one.
-/

namespace ResolutionCache.Decimal

/-- The whole number nearest to `num / den`, the even one of two that are equally near. -/
def roundDiv (num den : Nat) : Nat :=
  let quotient := num / den
  let twice := 2 * (num % den)
  if twice < den then quotient
  else if den < twice then quotient + 1
  else quotient + quotient % 2

/-- A number `significand * 2 ^ exponent`. -/
structure Binary where
  significand : Nat
  exponent : Int

namespace Binary

/-- The exact value of a finite floating-point number that is not negative. The lowest 52 bits are
the fraction and the next eleven the exponent; exponent zero has no hidden leading bit. -/
def ofFloat (x : Float) : Binary :=
  let fraction := (x.toBits &&& 0xfffffffffffff).toNat
  let exponent := (x.toBits >>> 52 &&& 0x7ff).toNat
  if exponent = 0 then ⟨fraction, -1074⟩
  else ⟨0x10000000000000 + fraction, Int.ofNat exponent - 1075⟩

/-- The value times a whole number, rounded to a whole number. -/
def scaled (b : Binary) (factor : Nat) : Nat :=
  let num := b.significand * factor
  if b.exponent < 0 then roundDiv num (1 <<< b.exponent.natAbs)
  else num <<< b.exponent.natAbs

/-- The decimal form with at least one digit after the point: the value in units of the last place,
with `places` digits behind the point and the others before it. -/
def fixed (b : Binary) (places : Nat) : String :=
  let unit := Nat.pow 10 places
  let n := b.scaled unit
  let behind := toString (n % unit)
  toString (n / unit) ++ "." ++ String.ofList (List.replicate (places - behind.length) '0')
    ++ behind

end Binary

end ResolutionCache.Decimal
