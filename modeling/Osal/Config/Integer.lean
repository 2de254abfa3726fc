/-!
# Integer literals

A literal is a decimal number with an optional sign and without leading zeros, or a number in base
sixteen, eight or two behind `0x`, `0o` or `0b`. Single underscores may stand between digits.
-/

namespace Osal.Config.Integer

/-- The value of a digit, for the bases up to sixteen. -/
def digit? (base : Nat) (c : Char) : Option Nat :=
  let n :=
    if '0' ≤ c ∧ c ≤ '9' then c.toNat - '0'.toNat
    else if 'a' ≤ c ∧ c ≤ 'f' then c.toNat - 'a'.toNat + 10
    else if 'A' ≤ c ∧ c ≤ 'F' then c.toNat - 'A'.toNat + 10
    else base
  if n < base then some n else none

/-- The number that more digits make of a number; each may follow an underscore. -/
def moreDigits (base : Nat) : List Char → Nat → Option Nat
  | [], n => some n
  | '_' :: c :: rest, n => (digit? base c).bind fun d => moreDigits base rest (n * base + d)
  | c :: rest, n => (digit? base c).bind fun d => moreDigits base rest (n * base + d)

/-- The number that digits make; there has to be one, and the first has no underscore. -/
def digits (base : Nat) : List Char → Option Nat
  | [] => none
  | c :: rest => (digit? base c).bind fun d => moreDigits base rest d

/-- A decimal number without leading zeros. -/
def decimal : List Char → Option Nat
  | ['0'] => some 0
  | '0' :: _ => none
  | cs => digits 10 cs

/-- The integer a literal stands for, from minus to plus the range of a word with sign. -/
def parse (literal : List Char) : Option Int :=
  let value : Option Int := match literal with
    | '0' :: 'x' :: cs => (digits 16 cs).map Int.ofNat
    | '0' :: 'o' :: cs => (digits 8 cs).map Int.ofNat
    | '0' :: 'b' :: cs => (digits 2 cs).map Int.ofNat
    | '+' :: cs => (decimal cs).map Int.ofNat
    | '-' :: cs => (decimal cs).map fun n => -Int.ofNat n
    | cs => (decimal cs).map Int.ofNat
  value.filter fun n => decide (-9223372036854775808 ≤ n ∧ n ≤ 9223372036854775807)

end Osal.Config.Integer
