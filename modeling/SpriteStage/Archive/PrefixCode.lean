/-!
Prefix codes over bits.

The codes of a prefix code follow from their lengths: shorter ones come first, and codes of one
length follow each other in the order of their symbols. A code is full if every sequence of bits
leads to a symbol. Besides the full codes there are two: one symbol whose code is a single zero, and
no symbol at all.
-/

namespace SpriteStage.Archive

/-- Why packed data cannot be unpacked. -/
inductive Damage where
  | cutOff
  | corrupt
  deriving DecidableEq, Repr

abbrev BitReader :=
  StateT (List Bool) (Except Damage)

namespace BitReader

def bit : BitReader Bool
  | [] => .error .cutOff
  | b :: rest => .ok (b, rest)

/-- A number of `n` bits, low bit first. -/
def number : Nat → BitReader Nat
  | 0 => return 0
  | n + 1 => do
    let low ← bit
    let high ← number n
    return 2 * high + low.toNat

end BitReader

inductive PrefixCode where
  | empty
  /-- One symbol has a code, which is a zero. -/
  | lone (symbol : Nat)
  /-- How many codes there are of each length from one on, and the symbols in the order of their
  codes. -/
  | full (counts : List Nat) (symbols : Array Nat)
  deriving DecidableEq, Repr

namespace PrefixCode

def maxLength : Nat :=
  15

def symbolsOf (lengths : List Nat) (length : Nat) : List Nat :=
  lengths.zipIdx.filterMap fun (l, symbol) => if l = length then some symbol else none

/-- How much of all sequences of sixteen bits the codes cover; there are 65536 of them. -/
def cover (counts : List Nat) : Nat :=
  counts.foldl (fun total count => 2 * (total + count)) 0

/-- The code whose symbols have codes of the given lengths; zero means no code. A code must be full,
unless it has one symbol with a code of one bit, or no symbol. -/
def ofLengths? (lengths : List Nat) : Option PrefixCode :=
  let groups := (List.range maxLength).map fun i => symbolsOf lengths (i + 1)
  let counts := groups.map List.length
  let symbols := groups.flatten
  if cover counts = 65536 then some (.full counts symbols.toArray)
  else
    match symbols, groups.head? with
    | [], _ => some .empty
    | [symbol], some [_] => some (.lone symbol)
    | _, _ => none

/-- Reads a symbol of a full code: `first` is the first code of the present length, `index` the
place of its symbol, and `start` twice the code read so far. -/
def readFull (symbols : Array Nat) : List Nat → Nat → Nat → Nat → BitReader Nat
  | [], _, _, _ => throw .corrupt
  | count :: counts, start, first, index => do
    let code := start + (← BitReader.bit).toNat
    if code < first + count then
      let some symbol := symbols[index + (code - first)]? | throw .corrupt
      return symbol
    else readFull symbols counts (2 * code) (2 * (first + count)) (index + count)

def read : PrefixCode → BitReader Nat
  | .empty => do
    let _ ← BitReader.bit
    throw .corrupt
  | .lone symbol => do
    if ← BitReader.bit then throw .corrupt else return symbol
  | .full counts symbols => readFull symbols counts 0 0 0

end PrefixCode

end SpriteStage.Archive
