import SdkPort.Card.CardRead
import SdkPort.Lib.Refine

/-!
# Card images in files

`memcard_backend.c`: two slots with a card image each, which is read from a file of the host, changed
in memory, and written back by a flush. The host may refuse memory, refuse to open a file, or write a
part of it; its answers are given with each call.
-/
namespace SdkPort.Card

open ByteMem (load store)
open Refine (specAll Legal)
open Function (update update_self update_of_ne)

/-- The bytes of a path, without the final zero. The null pointer is the empty path. -/
abbrev Path := List UInt8

structure Memcard where
  image : GcMemcard
  dirty : Bool
  path : Path

def clearCard : Memcard := ⟨⟨false, 0, fun _ => 0⟩, false, []⟩

/-- The slots, the files of the host, and its memory. -/
structure Backend where
  cards : Nat → Memcard
  files : Path → Option (List UInt8)
  mem : Nat → UInt8

/-- What the host grants: memory, the opening of a file that exists, and the bytes that are written
where a file can be opened for it. -/
structure HostAnswer where
  malloc : Bool
  opens : Bool
  written : Option Nat
  deriving DecidableEq

/-- The bytes of a file as an image: a longer file is cut, a shorter one is filled up. -/
def padded (size : Nat) (bytes : List UInt8) : List UInt8 := bytes.take size ++ List.replicate (size - bytes.length) 0xFF

/-- The path as it fits into its field. -/
def storedPath (path : Path) : Path := path.take 511

def badChan (chan : Int) : Prop := chan < 0 ∨ 2 ≤ chan

instance (chan : Int) : Decidable (badChan chan) := instDecidableOr

def setCard (b : Backend) (chan : Int) (c : Memcard) : Backend := { b with cards := update b.cards chan.toNat c }

/-- The bytes of a card. -/
def contents (c : GcMemcard) : List UInt8 := load c.data 0 c.size

inductive StoreCall where
  | insert (chan : Int) (path : Path) (size : Nat) (host : HostAnswer)
  | eject (chan : Int)
  | isInserted (chan : Int)
  | size (chan : Int)
  | read (chan : Int) (off dst len : Nat)
  | write (chan : Int) (off src len : Nat)
  | flush (chan : Int) (host : HostAnswer)
  | exiDma (chan : Int) (addr buffer : Nat) (length : Int) (type : Nat)
  deriving DecidableEq

/-- A file that cannot be opened for reading, but for writing, is taken for one that is missing. -/
def remakes (p : Path) : StoreCall → Prop
  | .insert chan path size host =>
    ¬(badChan chan ∨ path = [] ∨ size = 0 ∨ 32 * 1024 * 1024 < size) ∧ storedPath path = p ∧ host.malloc = true ∧
      host.opens = false ∧ host.written ≠ none
  | _ => False

/-- A call leaves a file that exists: it flushes no card of it, and does not make it anew. -/
def quiet (p : Path) (b : Backend) (call : StoreCall) : Prop :=
  ¬ remakes p call ∧ ∀ chan host, call = .flush chan host → (b.cards chan.toNat).path ≠ p

/-- A card without changes is its file, and no two cards have one file. -/
structure Backed (b : Backend) : Prop where
  valid : ∀ k, (b.cards k).image.inserted = true →
    (b.cards k).path ≠ [] ∧ (b.cards k).image.size ≠ 0 ∧ (b.cards k).image.size ≤ 32 * 1024 * 1024
  clean : ∀ k, (b.cards k).image.inserted = true → (b.cards k).dirty = false →
    ∃ bytes, b.files (b.cards k).path = some bytes ∧
      contents (b.cards k).image = padded (b.cards k).image.size bytes
  apart : ∀ k l, k ≠ l → (b.cards k).image.inserted = true → (b.cards l).image.inserted = true →
    (b.cards k).path ≠ (b.cards l).path

variable {b b' : Backend} {chan : Int} {path p : Path} {size k n : Nat} {host : HostAnswer} {bytes data : List UInt8}
  {files : Path → Option (List UInt8)}

theorem setCard_self (b : Backend) (chan : Int) (c : Memcard) : (setCard b chan c).cards chan.toNat = c := update_self ..

theorem setCard_other (h : k ≠ chan.toNat) (c : Memcard) : (setCard b chan c).cards k = b.cards k := update_of_ne h ..

/-- A card is taken out of its slot, or was never there. -/
theorem Backed.eject (h : Backed b) (chan : Int) : Backed (setCard b chan clearCard) := by
  have hk : ∀ k, ((setCard b chan clearCard).cards k).image.inserted = true →
      (setCard b chan clearCard).cards k = b.cards k := by
    intro k hi
    by_cases he : k = chan.toNat
    · rw [he, setCard_self] at hi
      cases hi
    · exact setCard_other he _
  constructor
  · intro k hi
    have he := hk k hi
    rw [he] at hi ⊢
    exact h.valid k hi
  · intro k hi hd
    have he := hk k hi
    rw [he] at hi hd ⊢
    exact h.clean k hi hd
  · intro k l hne hi hl
    have he := hk k hi
    have he' := hk l hl
    rw [he] at hi ⊢
    rw [he'] at hl ⊢
    exact h.apart k l hne hi hl

/-- The files of other cards change at most. -/
theorem Backed.setFiles (h : Backed b) (hf : ∀ k, (b.cards k).image.inserted = true → (b.cards k).dirty = false →
    files (b.cards k).path = b.files (b.cards k).path) : Backed { b with files := files } := by
  refine ⟨h.valid, fun k hi hd => ?_, h.apart⟩
  obtain ⟨bytes, hb, hc⟩ := h.clean k hi hd
  exact ⟨bytes, (hf k hi hd).trans hb, hc⟩

/-- A card comes into a slot, or changes there. -/
theorem Backed.put (h : Backed b) {c : Memcard}
    (hv : c.image.inserted = true → c.path ≠ [] ∧ c.image.size ≠ 0 ∧ c.image.size ≤ 32 * 1024 * 1024)
    (hc : c.dirty = false → ∃ bytes, b.files c.path = some bytes ∧ contents c.image = padded c.image.size bytes)
    (ha : ∀ k, k ≠ chan.toNat → (b.cards k).image.inserted = true → (b.cards k).path ≠ c.path) :
    Backed (setCard b chan c) := by
  constructor
  · intro k hi
    by_cases he : k = chan.toNat
    · rw [he, setCard_self] at hi ⊢
      exact hv hi
    · rw [setCard_other he] at hi ⊢
      exact h.valid k hi
  · intro k hi hd
    by_cases he : k = chan.toNat
    · rw [he, setCard_self] at hi hd ⊢
      exact hc hd
    · rw [setCard_other he] at hi hd ⊢
      exact h.clean k hi hd
  · intro k l hne hi hl
    by_cases he : k = chan.toNat
    · have hl' : l ≠ chan.toNat := fun hx => hne (he.trans hx.symm)
      rw [he, setCard_self]
      rw [setCard_other hl'] at hl ⊢
      exact (ha l hl' hl).symm
    · rw [setCard_other he] at hi ⊢
      by_cases he' : l = chan.toNat
      · rw [he', setCard_self]
        exact ha k he hi
      · rw [setCard_other he'] at hl ⊢
        exact h.apart k l hne hi hl

end SdkPort.Card
