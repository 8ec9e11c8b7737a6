import RecordLogic.Number.Power
import RecordLogic.Text.Letter

/-!
# Guids

Identifiers of 128 bits, written as 32 hexadecimal digits in five groups.
-/

namespace RecordLogic

structure Guid where
  bits : BitVec 128
  deriving DecidableEq, Repr

namespace Guid

def hexValue? (c : Char) : Option Nat :=
  if '0' ≤ c ∧ c ≤ '9' then some (c.toNat - 48)
  else if 'a' ≤ c ∧ c ≤ 'f' then some (c.toNat - 87)
  else if 'A' ≤ c ∧ c ≤ 'F' then some (c.toNat - 55)
  else none

def hexDigit (n : Nat) : Char := if n < 10 then Char.ofNat (48 + n) else Char.ofNat (87 + n)

/-- Thirty-two hexadecimal digits. -/
def ofHex? (cs : List Char) : Option Guid :=
  if cs.length = 32 then
    (cs.foldlM (fun n c => (hexValue? c).map (16 * n + ·)) 0).map fun n => ⟨BitVec.ofNat 128 n⟩
  else none

/-- Groups of 8, 4, 4, 4 and 12 digits between hyphens. -/
def ofGroups? (cs : List Char) : Option Guid :=
  let hyphen (i : Nat) : Bool := cs[i]? == some '-'
  if cs.length = 36 ∧ hyphen 8 ∧ hyphen 13 ∧ hyphen 18 ∧ hyphen 23 then
    ofHex? (cs.take 8 ++ (cs.drop 9).take 4 ++ (cs.drop 14).take 4 ++ (cs.drop 19).take 4 ++ cs.drop 24)
  else none

/-- All digits in a row, or groups: bare, in braces, or as a resource name. -/
def read? (cs : List Char) : Option Guid :=
  if cs.length = 32 then ofHex? cs
  else if cs.length = 36 then ofGroups? cs
  else if cs.length = 38 ∧ cs.head? = some '\x7b' ∧ cs.getLast? = some '\x7d' then ofGroups? (cs.drop 1).dropLast
  else if cs.length = 45 ∧ (cs.take 9).map Char.toLower = "urn:uuid:".toList then ofGroups? (cs.drop 9)
  else none

def hex (g : Guid) : List Char :=
  (List.range 32).map fun i => hexDigit (g.bits.toNat / Number.twoTo (4 * (31 - i)) % 16)

def text (g : Guid) : String :=
  let cs := g.hex
  String.ofList <| cs.take 8 ++ '-' :: (cs.drop 8).take 4 ++ '-' :: (cs.drop 12).take 4 ++
    '-' :: (cs.drop 16).take 4 ++ '-' :: cs.drop 20

end Guid

end RecordLogic
