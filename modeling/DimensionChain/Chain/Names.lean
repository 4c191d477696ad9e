import DimensionChain.Chain.BlockHeaderState

/-!
# Names

A name is a 64-bit number that holds twelve characters of five bits and one of four.
-/

namespace DimensionChain

namespace Name

def charmap : List Char :=
  ['.', '1', '2', '3', '4', '5', 'a', 'b', 'c', 'd', 'e', 'f', 'g', 'h', 'i', 'j', 'k', 'l', 'm',
    'n', 'o', 'p', 'q', 'r', 's', 't', 'u', 'v', 'w', 'x', 'y', 'z']

def charToSymbol (c : Char) : Nat :=
  if 'a' ≤ c ∧ c ≤ 'z' then c.toNat - 'a'.toNat + 6
  else if '1' ≤ c ∧ c ≤ '5' then c.toNat - '1'.toNat + 1
  else 0

def encode : Nat → List Char → Nat
  | 0, c :: _ => charToSymbol c % 16
  | 0, [] => 0
  | n + 1, c :: cs => charToSymbol c % 32 * 2 ^ (5 * n + 4) + encode n cs
  | _ + 1, [] => 0

def stringToName (str : List Char) : Nat := encode 12 str

def lowChars : Nat → Nat → List Char
  | 0, _ => []
  | n + 1, v => charmap.getD (v % 32) '.' :: lowChars n (v / 32)

def toChars (value : Nat) : List Char :=
  ((charmap.getD (value % 16) '.' :: lowChars 12 (value / 16)).dropWhile (· = '.')).reverse

def isReserved (value : Nat) : Bool := ['e', 'o', 'n', 'i', 'o', '.'].isPrefixOf (toChars value)

end Name

namespace Config

def ownerName : Nat := Name.stringToName ['o', 'w', 'n', 'e', 'r']

def activeName : Nat := Name.stringToName ['a', 'c', 't', 'i', 'v', 'e']

def eosioAnyName : Nat := Name.stringToName ['e', 'o', 'n', 'i', 'o', '.', 'a', 'n', 'y']

def eosioCodeName : Nat := Name.stringToName ['e', 'o', 'n', 'i', 'o', '.', 'c', 'o', 'd', 'e']

def nullAccountName : AccountName :=
  Name.stringToName ['e', 'o', 'n', 'i', 'o', '.', 'n', 'u', 'l', 'l']

def producersAccountName : AccountName :=
  Name.stringToName ['e', 'o', 'n', 'i', 'o', '.', 'p', 'r', 'o', 'd', 's']

def majorityProducersPermissionName : Nat :=
  Name.stringToName ['p', 'r', 'o', 'd', '.', 'm', 'a', 'j', 'o', 'r']

def minorityProducersPermissionName : Nat :=
  Name.stringToName ['p', 'r', 'o', 'd', '.', 'm', 'i', 'n', 'o', 'r']

end Config

example : Name.stringToName ['e', 'o', 'n', 'i', 'o'] = Config.systemAccountName := by decide

example : Name.toChars Config.eosioAnyName = ['e', 'o', 'n', 'i', 'o', '.', 'a', 'n', 'y'] := by decide

end DimensionChain
