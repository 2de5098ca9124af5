import SdkPort.Card.Fat

/-!
# The checks of a mounted card

`CARDCheck.c`: sums over big-endian words, and the tests a file allocation table passes
after it was read from a card.
-/
namespace SdkPort.Card

def CARD_SYSTEM_BLOCK_SIZE : Nat := 8 * 1024
def CARD_NUM_SYSTEM_BLOCK : Nat := 5
def CARD_FAT_AVAIL : Nat := 0
def CARD_FAT_CHECKSUM : Nat := 0
def CARD_FAT_CHECKSUMINV : Nat := 1
def CARD_FAT_CHECKCODE : Nat := 2
def CARD_FAT_FREEBLOCKS : Nat := 3

/-- A big-endian word at an offset into a buffer. -/
def rd16be (p : Nat → UInt8) (i : Nat) : Nat := (p i).toNat * 2 ^ 8 + (p (i + 1)).toNat

/-- The sums of the first words and of their complements. -/
def cardSumUpTo (p : Nat → UInt8) (i : Nat) : Nat → Nat × Nat
  | 0 => (0, 0)
  | n + 1 =>
    let sums := cardSumUpTo p i n
    let v := rd16be p (i + n * 2)
    (u16 (sums.1 + v), u16 (sums.2 + (0xFFFF - v)))

def cardChecksumU16be (p : Nat → UInt8) (i length : Nat) : Nat × Nat :=
  let sums := cardSumUpTo p i (length / 2)
  (if sums.1 = 0xFFFF then 0 else sums.1, if sums.2 = 0xFFFF then 0 else sums.2)

/-- The free blocks among the first block numbers. -/
def countFree (p : Nat → UInt8) (i : Nat) : Nat → Nat
  | 0 => 0
  | n + 1 =>
    let cFree := countFree p i n
    if CARD_NUM_SYSTEM_BLOCK ≤ n ∧ rd16be p (i + n * 2) = CARD_FAT_AVAIL then u16 (cFree + 1) else cFree

/-- The two sums in a table at an offset into a buffer are those of its words. -/
def fatSumsMatch (p : Nat → UInt8) (i : Nat) : Bool :=
  let sums := cardChecksumU16be p (i + CARD_FAT_CHECKCODE * 2) (CARD_SYSTEM_BLOCK_SIZE - 4)
  rd16be p (i + CARD_FAT_CHECKSUM * 2) = sums.1 ∧ rd16be p (i + CARD_FAT_CHECKSUMINV * 2) = sums.2

/-- The number of free blocks in the table is that of its words. -/
def fatFreeMatches (p : Nat → UInt8) (i cblock : Nat) : Bool :=
  countFree p i (u16 cblock) = rd16be p (i + CARD_FAT_FREEBLOCKS * 2)

end SdkPort.Card
