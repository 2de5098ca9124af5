import Mathlib.Algebra.Order.Ring.Int
import Mathlib.Data.List.Induction
import Mathlib.Logic.Function.Basic

/-!
# Bit fields packed into words

Fields of several words are stored one after the other. Where no two fields share a bit,
each of them holds what was stored into it last, and the bits beside them never change.
-/
namespace SdkPort.BitFields

open Function (update update_self update_of_ne)

variable {ι α : Type} {w size shift i b s : Nat} {reg v x y : BitVec w}

def ones (w size : Nat) : BitVec w := 1#w <<< size - 1#w

/-- The bits of a field take those of a value. -/
def put (reg : BitVec w) (size shift : Nat) (v : BitVec w) : BitVec w :=
  (reg &&& ~~~(ones w size <<< shift)) ||| ((v <<< shift) &&& (ones w size <<< shift))

/-- The value of a field. -/
def get (reg : BitVec w) (size shift : Nat) : BitVec w := (reg >>> shift) &&& ones w size

theorem getLsbD_ones (hi : i < w) : (ones w size).getLsbD i = decide (i < size) := by
  have hw : 0 < w := by omega
  have hone : (1#w : BitVec w).toNat = 1 := by
    rw [BitVec.toNat_ofNat]
    exact Nat.mod_eq_of_lt (Nat.one_lt_two_pow (by omega))
  have hpow : 1 ≤ 2 ^ w := Nat.one_le_two_pow
  rw [BitVec.getLsbD, ones, BitVec.toNat_sub, BitVec.toNat_shiftLeft, hone, Nat.one_shiftLeft]
  by_cases hs : size < w
  · have hlt : 2 ^ size < 2 ^ w := Nat.pow_lt_pow_right (by decide) hs
    have hle : 1 ≤ 2 ^ size := Nat.one_le_two_pow
    have hsum : 2 ^ w - 1 + 2 ^ size = 2 ^ size - 1 + 2 ^ w := by omega
    rw [Nat.mod_eq_of_lt hlt, hsum, Nat.add_mod_right, Nat.mod_eq_of_lt (by omega), Nat.testBit_two_pow_sub_one]
  · have hzero : 2 ^ size % 2 ^ w = 0 := Nat.mod_eq_zero_of_dvd (Nat.pow_dvd_pow 2 (by omega))
    rw [hzero, Nat.add_zero, Nat.mod_eq_of_lt (by omega), Nat.testBit_two_pow_sub_one]
    rw [decide_eq_true hi, decide_eq_true (by omega)]

/-- A mask of low bits takes the remainder. -/
theorem toNat_and_ones : (x &&& ones w size).toNat = x.toNat % 2 ^ size := by
  apply Nat.eq_of_testBit_eq
  intro i
  rw [BitVec.testBit_toNat, Nat.testBit_mod_two_pow, BitVec.testBit_toNat, BitVec.getLsbD_and, Bool.and_comm]
  by_cases hi : i < w
  · rw [getLsbD_ones hi]
  · rw [BitVec.getLsbD_of_ge x i (Nat.le_of_not_lt hi), Bool.and_false, Bool.and_false]

/-- Bits under a mask that was moved up. -/
theorem and_shiftLeft : x &&& (y <<< s) = ((x >>> s) &&& y) <<< s := by
  apply BitVec.eq_of_getLsbD_eq
  intro i hi
  rw [BitVec.getLsbD_and, BitVec.getLsbD_shiftLeft, BitVec.getLsbD_shiftLeft, BitVec.getLsbD_and,
    BitVec.getLsbD_ushiftRight]
  by_cases hs : i < s
  · simp [hs]
  · have hsum : s + (i - s) = i := Nat.add_sub_of_le (Nat.le_of_not_lt hs)
    simp [hi, hs, hsum]

theorem getLsbD_single (hb : b < w) : (1#w <<< i).getLsbD b = decide (i = b) := by
  rw [← BitVec.twoPow_eq, BitVec.getLsbD_twoPow]
  by_cases h : i = b
  · subst h
    simp [hb]
  · simp [h]

/-- A single bit of a word, moved up. -/
theorem getLsbD_moved_up (hb : b < w) :
    ((x &&& (1#w <<< i)) <<< s).getLsbD b = (decide (i + s = b) && x.getLsbD i) := by
  rw [BitVec.getLsbD_shiftLeft, BitVec.getLsbD_and]
  by_cases hs : s ≤ b
  · rw [getLsbD_single (by omega)]
    by_cases h : i = b - s
    · subst h
      have hsum : b - s + s = b := Nat.sub_add_cancel hs
      simp [hb, hs, hsum]
    · have hsum : i + s ≠ b := by omega
      simp [h, hsum]
  · have hsum : i + s ≠ b := by omega
    simp [Nat.lt_of_not_le hs, hsum]

/-- A single bit of a word, moved down. -/
theorem getLsbD_moved_down (hi : i < w) :
    ((x &&& (1#w <<< i)) >>> s).getLsbD b = (decide (b + s = i) && x.getLsbD i) := by
  rw [BitVec.getLsbD_ushiftRight, BitVec.getLsbD_and]
  by_cases hs : s + b < w
  · rw [getLsbD_single hs]
    by_cases h : i = s + b
    · subst h
      simp [Nat.add_comm]
    · have hsum : b + s ≠ i := by omega
      simp [h, hsum]
  · have hsum : b + s ≠ i := by omega
    simp [BitVec.getLsbD_of_ge x (s + b) (Nat.le_of_not_lt hs), hsum]

/-- A multiple of a power of two is what the low bits leave over. -/
theorem and_not_ones (t : Nat) : BitVec.ofNat w t &&& ~~~ones w size = BitVec.ofNat w (t / 2 ^ size * 2 ^ size) := by
  apply BitVec.eq_of_getLsbD_eq
  intro i hi
  rw [BitVec.getLsbD_and, BitVec.getLsbD_not, getLsbD_ones hi, BitVec.getLsbD_ofNat, BitVec.getLsbD_ofNat,
    ← Nat.shiftRight_eq_div_pow, ← Nat.shiftLeft_eq, Nat.testBit_shiftLeft, Nat.testBit_shiftRight]
  by_cases hs : size ≤ i
  · have hsum : size + (i - size) = i := by omega
    simp [hi, hs, hsum]
  · simp [hi, hs, Nat.lt_of_not_le hs]

theorem getLsbD_put (hi : i < w) : (put reg size shift v).getLsbD i =
    if shift ≤ i ∧ i < shift + size then v.getLsbD (i - shift) else reg.getLsbD i := by
  rw [put, BitVec.getLsbD_or, BitVec.getLsbD_and, BitVec.getLsbD_and, BitVec.getLsbD_not, BitVec.getLsbD_shiftLeft,
    BitVec.getLsbD_shiftLeft, getLsbD_ones (by omega)]
  by_cases hlo : shift ≤ i
  · by_cases hhi : i < shift + size
    · have hin : i - shift < size := by omega
      have hlo' : ¬ i < shift := Nat.not_lt.mpr hlo
      simp [hi, hlo, hhi, hin, hlo']
    · have hout : ¬ i - shift < size := by omega
      simp [hi, hlo, hhi, hout]
  · simp [hi, hlo, Nat.lt_of_not_le hlo]

theorem getLsbD_get (hi : i < w) : (get reg size shift).getLsbD i =
    (decide (i < size) && reg.getLsbD (shift + i)) := by
  rw [get, BitVec.getLsbD_and, BitVec.getLsbD_ushiftRight, getLsbD_ones hi, Bool.and_comm]

theorem toNat_get : (get reg size shift).toNat = reg.toNat / 2 ^ shift % 2 ^ size := by
  rw [get, toNat_and_ones, BitVec.toNat_ushiftRight, Nat.shiftRight_eq_div_pow]

/-- A field gives back what was put into it, as far as it fits. -/
theorem get_put (hw : shift + size ≤ w) : get (put reg size shift v) size shift = v &&& ones w size := by
  apply BitVec.eq_of_getLsbD_eq
  intro i hi
  rw [getLsbD_get hi, BitVec.getLsbD_and, getLsbD_ones hi]
  by_cases hs : i < size
  · rw [getLsbD_put (by omega), if_pos (by omega), Nat.add_sub_cancel_left, Bool.and_comm]
  · simp [hs]

/-- Where a field lies. -/
structure Place (ι : Type) where
  word : ι
  size : Nat
  shift : Nat

namespace Place

def Covers (p : Place ι) (k : ι) (i : Nat) : Prop := k = p.word ∧ p.shift ≤ i ∧ i < p.shift + p.size

/-- Two places share no bit. -/
def Apart (p q : Place ι) : Prop :=
  p.word ≠ q.word ∨ p.shift + p.size ≤ q.shift ∨ q.shift + q.size ≤ p.shift

theorem Apart.not_covers {p q : Place ι} {k : ι} (h : p.Apart q) (hp : p.Covers k i) : ¬ q.Covers k i := by
  rintro ⟨rfl, hlo, hhi⟩
  obtain ⟨hk, hlo', hhi'⟩ := hp
  obtain h | h | h := h
  · exact h hk.symm
  · omega
  · omega

def read (m : ι → BitVec w) (p : Place ι) : BitVec w := get (m p.word) p.size p.shift

variable [DecidableEq ι]

def write (m : ι → BitVec w) (p : Place ι) (v : BitVec w) : ι → BitVec w :=
  update m p.word (put (m p.word) p.size p.shift v)

theorem write_bit {m : ι → BitVec w} {p : Place ι} {k : ι} (hi : i < w) (hp : p.Covers k i) :
    (p.write m v k).getLsbD i = v.getLsbD (i - p.shift) := by
  obtain ⟨rfl, hlo, hhi⟩ := hp
  rw [write, update_self, getLsbD_put hi, if_pos ⟨hlo, hhi⟩]

theorem write_bit_outside {m : ι → BitVec w} {p : Place ι} {k : ι} (hi : i < w) (hp : ¬ p.Covers k i) :
    (p.write m v k).getLsbD i = (m k).getLsbD i := by
  by_cases hk : k = p.word
  · subst hk
    rw [write, update_self, getLsbD_put hi, if_neg fun h => hp ⟨rfl, h⟩]
  · rw [write, update_of_ne hk]

theorem read_write_self {m : ι → BitVec w} {p : Place ι} (hw : p.shift + p.size ≤ w) :
    p.read (p.write m v) = v &&& ones w p.size := by
  rw [read, write, update_self, get_put hw]

/-- A bit after a store depends on that bit before it. -/
theorem write_bit_congr {m m' : ι → BitVec w} {p : Place ι} {k : ι} (hi : i < w)
    (h : (m' k).getLsbD i = (m k).getLsbD i) : (p.write m' v k).getLsbD i = (p.write m v k).getLsbD i := by
  by_cases hp : p.Covers k i
  · rw [write_bit hi hp, write_bit hi hp]
  · rw [write_bit_outside hi hp, write_bit_outside hi hp, h]

omit [DecidableEq ι] in
theorem read_congr {m m' : ι → BitVec w} {p : Place ι}
    (h : ∀ i, p.Covers p.word i → (m' p.word).getLsbD i = (m p.word).getLsbD i) : p.read m' = p.read m := by
  apply BitVec.eq_of_getLsbD_eq
  intro i hi
  rw [read, read, getLsbD_get hi, getLsbD_get hi]
  by_cases hs : i < p.size
  · rw [h (p.shift + i) ⟨rfl, by omega, by omega⟩]
  · simp [hs]

end Place

section Fields

variable [DecidableEq ι] {place : α → Place ι} {m : ι → BitVec w} {f g : α}
  {l l' : List (α × BitVec w)} {k : ι}

/-- Values are stored into fields, the first one first. -/
def storeAll (place : α → Place ι) (m : ι → BitVec w) (l : List (α × BitVec w)) : ι → BitVec w :=
  l.foldl (fun m x => (place x.1).write m x.2) m

@[simp] theorem storeAll_nil : storeAll place m [] = m := rfl

@[simp] theorem storeAll_cons (x : α × BitVec w) :
    storeAll place m (x :: l) = storeAll place ((place x.1).write m x.2) l := rfl

theorem storeAll_append : storeAll place m (l ++ l') = storeAll place (storeAll place m l) l' :=
  List.foldl_append

/-- A bit of no stored field stays. -/
theorem storeAll_outside (hi : i < w) (h : ∀ x ∈ l, ¬ (place x.1).Covers k i) :
    (storeAll place m l k).getLsbD i = (m k).getLsbD i := by
  induction l generalizing m with
  | nil => rfl
  | cons x l ih =>
    rw [storeAll_cons, ih fun y hy => h y (List.mem_cons_of_mem _ hy)]
    exact Place.write_bit_outside hi (h x List.mem_cons_self)

/-- A bit after stores depends on that bit before them. -/
theorem storeAll_bit_congr {m' : ι → BitVec w} (hi : i < w) (h : (m' k).getLsbD i = (m k).getLsbD i) :
    (storeAll place m' l k).getLsbD i = (storeAll place m l k).getLsbD i := by
  induction l generalizing m m' with
  | nil => exact h
  | cons x l ih => exact ih (Place.write_bit_congr hi h)

/-- The layout of fields that share no bit. -/
structure Layout (w : Nat) (place : α → Place ι) : Prop where
  fits : ∀ f, (place f).shift + (place f).size ≤ w
  apart : ∀ f g, f ≠ g → (place f).Apart (place g)

/-- A field into which nothing is stored keeps its value. -/
theorem Layout.read_other (h : Layout w place) (hf : ∀ x ∈ l, x.1 ≠ f) :
    (place f).read (storeAll place m l) = (place f).read m := by
  apply Place.read_congr
  intro i hc
  have hfit := h.fits f
  obtain ⟨_, _, hi⟩ := id hc
  apply storeAll_outside (by omega)
  intro x hx
  exact (h.apart f x.1 (Ne.symm (hf x hx))).not_covers hc

/-- A store is seen by its own field only. -/
theorem Layout.read_write [DecidableEq α] (h : Layout w place) :
    (place f).read ((place g).write m v) = if f = g then v &&& ones w (place f).size else (place f).read m := by
  split
  · rename_i hf
    subst hf
    exact Place.read_write_self (h.fits f)
  · rename_i hf
    apply h.read_other (l := [(g, v)])
    intro x hx
    rw [List.mem_singleton.mp hx]
    exact Ne.symm hf

/-- The value stored last into a field. -/
def lastValue [DecidableEq α] (l : List (α × BitVec w)) (f : α) : Option (BitVec w) := l.reverse.lookup f

theorem lastValue_append [DecidableEq α] : lastValue (l ++ l') f = (lastValue l' f).or (lastValue l f) := by
  rw [lastValue, List.reverse_append, List.lookup_append]
  rfl

theorem lastValue_eq_lookup [DecidableEq α] (h : (l.map Prod.fst).Nodup) : lastValue l f = l.lookup f := by
  induction l with
  | nil => rfl
  | cons x l ih =>
    obtain ⟨g, v⟩ := x
    obtain ⟨hx, hl⟩ := List.nodup_cons.mp h
    rw [← List.singleton_append, lastValue_append, ih hl, List.lookup_append]
    by_cases hf : f = g
    · subst hf
      have hnone : l.lookup f = none := by
        apply List.lookup_eq_none_iff.mpr
        intro y hy
        apply bne_iff_ne.mpr
        intro he
        exact hx (List.mem_map.mpr ⟨y, hy, he.symm⟩)
      rw [hnone, Option.none_or, Option.or_none]
      rfl
    · have hnone : [(g, v)].lookup f = none := by
        rw [List.lookup_cons, beq_false_of_ne hf]
        rfl
      rw [hnone, Option.none_or, lastValue, List.reverse_singleton, hnone, Option.or_none]

/-- A field holds what was stored into it last. -/
theorem Layout.read_storeAll [DecidableEq α] (h : Layout w place) (l : List (α × BitVec w)) (f : α) :
    (place f).read (storeAll place m l) =
      ((lastValue l f).map (· &&& ones w (place f).size)).getD ((place f).read m) := by
  induction l using List.reverseRecOn with
  | nil => rfl
  | append_singleton l x ih =>
    rw [storeAll_append, lastValue, List.reverse_concat]
    by_cases hx : f = x.1
    · obtain ⟨g, v⟩ := x
      subst hx
      simp only [List.lookup_cons, beq_self_eq_true]
      exact Place.read_write_self (h.fits f)
    · have hlook : List.lookup f (x :: l.reverse) = lastValue l f := by
        rw [List.lookup_cons, beq_false_of_ne hx]
        rfl
      rw [hlook, ← ih]
      exact (h.read_write (f := f) (g := x.1)).trans (if_neg hx)

/-- Stores into disjoint sets of fields can change places. -/
theorem Layout.storeAll_comm (h : Layout w place) (hd : ∀ x ∈ l, ∀ y ∈ l', x.1 ≠ y.1) :
    storeAll place (storeAll place m l) l' = storeAll place (storeAll place m l') l := by
  funext k
  apply BitVec.eq_of_getLsbD_eq
  intro i hi
  by_cases hc : ∃ y ∈ l', (place y.1).Covers k i
  · obtain ⟨y, hy, hc⟩ := hc
    have hl : ∀ x ∈ l, ¬ (place x.1).Covers k i :=
      fun x hx => (h.apart _ _ (Ne.symm (hd x hx y hy))).not_covers hc
    rw [storeAll_outside hi hl]
    exact storeAll_bit_congr hi (storeAll_outside hi hl)
  · have hl' : ∀ y ∈ l', ¬ (place y.1).Covers k i := fun y hy hyc => hc ⟨y, hy, hyc⟩
    rw [storeAll_outside hi hl']
    exact (storeAll_bit_congr hi (storeAll_outside hi hl')).symm

end Fields

end SdkPort.BitFields
