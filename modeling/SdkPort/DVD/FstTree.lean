import Mathlib.Data.List.Pairwise
import SdkPort.DVD.Fst
import SdkPort.Lib.PathTree

/-!
# Tables that hold a tree

A well-formed table lists a tree in preorder. The search among the entries of a
directory hops over the subtrees and compares names with what is left of the path.
-/
namespace SdkPort.DVD

open Gc (GcMem u32)
open PathTree (Tree)

/-- The entries from an index up to another one are those of a list of entries, each
directory followed by its subtree. -/
inductive Family (isDir : Nat → Bool) (next parent : Nat → Nat) (d : Nat) : Nat → Nat → List Nat → Prop
  | nil (j : Nat) : Family isDir next parent d j j []
  | file {i j : Nat} {l : List Nat} :
      isDir i = false → Family isDir next parent d (i + 1) j l → Family isDir next parent d i j (i :: l)
  | dir {i j : Nat} {l : List Nat} :
      isDir i = true → parent i = d → i < next i → Family isDir next parent d (next i) j l →
      Family isDir next parent d i j (i :: l)

/-- A table in preorder with proper names. -/
structure Fst where
  count : Nat
  isDir : Nat → Bool
  next : Nat → Nat
  parent : Nat → Nat
  name : Nat → List UInt8
  children : Nat → List Nat
  count_pos : 0 < count
  root_dir : isDir 0 = true
  root_parent : parent 0 = 0
  root_next : next 0 = count
  within : ∀ d, d < count → isDir d = true → next d ≤ count
  family : ∀ d, d < count → isDir d = true → Family isDir next parent d (d + 1) (next d) (children d)
  proper : ∀ d i, d < count → isDir d = true → i ∈ children d →
    name i ≠ [] ∧ 47 ∉ name i ∧ name i ≠ [46] ∧ name i ≠ [46, 46]
  distinct : ∀ d, d < count → isDir d = true →
    (children d).Pairwise fun i j => (name i).map tolower ≠ (name j).map tolower

/-- A name at an address, ended by a zero or by the end of the memory. -/
def Named (m : GcMem) : Nat → List UInt8 → Prop
  | addr, [] => dvdLoadU8 m addr = none ∨ dvdLoadU8 m addr = some 0
  | addr, c :: l => dvdLoadU8 m addr = some c ∧ c ≠ 0 ∧ Named m (u32 (addr + 1)) l

/-- The memory holds the table. -/
structure Holds (s : St) (t : Fst) : Prop where
  max : s.fstMaxEntryNum = t.count
  fits : t.count * 12 ≤ 2 ^ 32
  dirs : ∀ i, i < t.count → fstEntryIsDir s i = t.isDir i
  nexts : ∀ i, i < t.count → t.isDir i = true → fstNextDir s i = t.next i
  parents : ∀ i, i < t.count → t.isDir i = true → fstParentDir s i = t.parent i
  names : ∀ i, 0 < i → i < t.count → Named s.mem (u32 (s.fstStringStartAddr + fstStringOff s i)) (t.name i)

/-- Names are compared without regard to the case of ASCII letters. -/
def sameName (c w : List UInt8) : Bool := c.map tolower = w.map tolower

variable {isDir : Nat → Bool} {next parent : Nat → Nat} {s : St} {t : Fst} {m : GcMem}
  {d i j n a : Nat} {l : List Nat} {c w path : List UInt8}

/-- Only letters change. -/
theorem tolower_cases (c : UInt8) : tolower c = c ∨ 65 ≤ c.toNat ∧ c.toNat ≤ 90 ∧ (tolower c).toNat = c.toNat + 32 := by
  unfold tolower
  split
  · rename_i h
    obtain ⟨h₁, h₂⟩ := h
    rw [UInt8.le_iff_toNat_le] at h₁ h₂
    have h₃ : (65 : UInt8).toNat = 65 := rfl
    have h₄ : (90 : UInt8).toNat = 90 := rfl
    have h₅ : (32 : UInt8).toNat = 32 := rfl
    right
    rw [UInt8.toNat_add]
    omega
  · exact .inl rfl

theorem tolower_eq_slash {c : UInt8} : tolower c = 47 ↔ c = 47 := by
  constructor
  · intro h
    cases tolower_cases c with
    | inl hc => rwa [← hc]
    | inr hc =>
      have h47 : (47 : UInt8).toNat = 47 := rfl
      rw [h] at hc
      omega
  · rintro rfl
    rfl

namespace Family

theorem le (h : Family isDir next parent d i j l) : i ≤ j := by
  induction h with
  | nil j => exact Nat.le_refl j
  | file _ _ ih => omega
  | dir _ _ hlt _ ih => omega

theorem length_le (h : Family isDir next parent d i j l) : l.length ≤ j - i := by
  induction h with
  | nil j => exact Nat.zero_le _
  | file _ h ih =>
    have hle := h.le
    rw [List.length_cons]
    omega
  | dir _ _ hlt h ih =>
    have hle := h.le
    rw [List.length_cons]
    omega

/-- The entries lie between the two indices. -/
theorem mem (h : Family isDir next parent d i j l) (hn : n ∈ l) : i ≤ n ∧ n < j := by
  induction h with
  | nil j => cases hn
  | @file i j l _ h ih =>
    have hle := h.le
    cases List.mem_cons.mp hn with
    | inl he => omega
    | inr hm =>
      have := ih hm
      omega
  | @dir i j l _ _ hlt h ih =>
    have hle := h.le
    cases List.mem_cons.mp hn with
    | inl he => omega
    | inr hm =>
      have := ih hm
      omega

theorem parent_eq (h : Family isDir next parent d i j l) (hn : n ∈ l) (hdir : isDir n = true) :
    parent n = d := by
  induction h with
  | nil j => cases hn
  | file hf _ ih =>
    cases List.mem_cons.mp hn with
    | inl he =>
      rw [← he, hdir] at hf
      cases hf
    | inr hm => exact ih hm
  | dir _ hp _ _ ih =>
    cases List.mem_cons.mp hn with
    | inl he => rw [he, hp]
    | inr hm => exact ih hm

end Family

namespace Fst

/-- The tree of a table. -/
def tree (t : Fst) : Tree Nat (List UInt8) where
  root := 0
  isDir := t.isDir
  parent := t.parent
  children := t.children
  same := fun c i => sameName c (t.name i)

theorem child (t : Fst) (hd : d < t.count) (hdir : t.isDir d = true) (hi : i ∈ t.children d) :
    d < i ∧ i < t.count := by
  have hm := (t.family d hd hdir).mem hi
  have hw := t.within d hd hdir
  omega

theorem tree_distinct (t : Fst) (hd : d < t.count) (hdir : t.isDir d = true) : t.tree.Distinct d := by
  intro n i hi j hj hni hnj
  by_contra hij
  have hsymm : Std.Symm fun i j => (t.name i).map tolower ≠ (t.name j).map tolower := ⟨fun _ _ h => Ne.symm h⟩
  have hne : (t.name i).map tolower ≠ (t.name j).map tolower := (t.distinct d hd hdir).forall hi hj hij
  have h₁ : n.map tolower = (t.name i).map tolower := of_decide_eq_true hni
  have h₂ : n.map tolower = (t.name j).map tolower := of_decide_eq_true hnj
  exact hne (h₁.symm.trans h₂)

end Fst

theorem isSameMem_ended (h : dvdLoadU8 m a = none ∨ dvdLoadU8 m a = some 0) :
    isSameMem m path a = decide (path.head? = none ∨ path.head? = some 47) := by
  unfold isSameMem
  cases h with
  | inl h => rw [h]
  | inr h =>
    rw [h]
    exact if_pos rfl

theorem isSameMem_nil {x : UInt8} (h : dvdLoadU8 m a = some x) (hx : x ≠ 0) : isSameMem m [] a = false := by
  unfold isSameMem
  rw [h]
  exact if_neg hx

theorem isSameMem_cons {x y : UInt8} (h : dvdLoadU8 m a = some x) (hx : x ≠ 0) :
    isSameMem m (y :: path) a = decide (tolower y = tolower x ∧ isSameMem m path (u32 (a + 1)) = true) := by
  rw [isSameMem, h]
  exact if_neg hx

/-- Comparing what is left of a path with a name compares the component it begins with. -/
theorem isSameMem_eq {tail : List UInt8} (hn : Named m a w) (hw : 47 ∉ w) (hc : 47 ∉ c)
    (ht : tail = [] ∨ tail.head? = some 47) : isSameMem m (c ++ tail) a = sameName c w := by
  induction w generalizing a c with
  | nil =>
    rw [isSameMem_ended hn]
    cases c with
    | nil =>
      cases ht with
      | inl h => simp [h, sameName]
      | inr h => simp [h, sameName]
    | cons y c =>
      have hy : y ≠ 47 := fun he => hc (he ▸ List.mem_cons_self)
      simp [sameName, hy]
  | cons x w ih =>
    obtain ⟨hx, hx0, hn⟩ := hn
    have hx47 : x ≠ 47 := fun he => hw (he ▸ List.mem_cons_self)
    have hw' : 47 ∉ w := fun hm => hw (List.mem_cons_of_mem _ hm)
    cases c with
    | nil =>
      cases tail with
      | nil => simp [isSameMem_nil hx hx0, sameName]
      | cons z tail =>
        have hz : z = 47 := by simpa using ht
        have hne : ¬ tolower 47 = tolower x := fun he => hx47 (tolower_eq_slash.mp (he.symm.trans (by decide)))
        rw [List.nil_append, isSameMem_cons hx hx0, hz]
        simp [hne, sameName]
    | cons y c =>
      have hc' : 47 ∉ c := fun hm => hc (List.mem_cons_of_mem _ hm)
      rw [List.cons_append, isSameMem_cons hx hx0, ih hn hw' hc']
      simp [sameName]

/-- One entry of the search: taken, or passed over with its subtree. -/
theorem findEntry_succ (hs : Holds s t) {want : Bool} {q : Nat → Bool} {j : Nat} (hi : i < j)
    (hj : j ≤ t.count)
    (hq : isSameMem s.mem path (u32 (s.fstStringStartAddr + fstStringOff s i)) = q i) :
    findEntry s path want j (n + 1) i = if (t.isDir i || !want) && q i then some (some i)
      else findEntry s path want j n (if t.isDir i then t.next i else i + 1) := by
  have hic : i < t.count := Nat.lt_of_lt_of_le hi hj
  have hd := hs.dirs i hic
  have hfits := hs.fits
  have hnext : (if t.isDir i = true then fstNextDir s i else u32 (i + 1)) =
      if t.isDir i = true then t.next i else i + 1 := by
    split
    · rename_i h
      exact hs.nexts i hic h
    · exact Nat.mod_eq_of_lt (by omega)
  rw [findEntry, if_neg (not_not.mpr hi), hd, hq, hnext]
  cases t.isDir i <;> cases want <;> cases q i <;> simp

/-- A search of one child and of those behind it. -/
theorem findEntry_cons (hs : Holds s t) {want : Bool} {q : Nat → Bool} {j : Nat} (hi : i < j)
    (hj : j ≤ t.count)
    (hq : isSameMem s.mem path (u32 (s.fstStringStartAddr + fstStringOff s i)) = q i)
    (hrest : findEntry s path want j n (if t.isDir i then t.next i else i + 1) =
      some (l.find? fun k => (t.isDir k || !want) && q k)) :
    findEntry s path want j (n + 1) i = some ((i :: l).find? fun k => (t.isDir k || !want) && q k) := by
  rw [findEntry_succ hs hi hj hq, List.find?_cons, hrest]
  cases (t.isDir i || !want) && q i <;> rfl

/-- The search looks at the children of a directory. -/
theorem findEntry_eq (hs : Holds s t) {want : Bool} {q : Nat → Bool} {j : Nat}
    (hq : ∀ k ∈ l, isSameMem s.mem path (u32 (s.fstStringStartAddr + fstStringOff s k)) = q k)
    (hf : Family t.isDir t.next t.parent d i j l) (hj : j ≤ t.count) (hn : l.length < n) :
    findEntry s path want j n i = some (l.find? fun k => (t.isDir k || !want) && q k) := by
  induction hf generalizing n with
  | nil j =>
    cases n with
    | zero => cases hn
    | succ n => simp [findEntry]
  | @file i j l hdir hf ih =>
    cases n with
    | zero => cases hn
    | succ n =>
      have hle := hf.le
      apply findEntry_cons hs (by omega) hj (hq i List.mem_cons_self)
      rw [hdir]
      exact ih (fun k hk => hq k (List.mem_cons_of_mem _ hk)) hj (Nat.lt_of_succ_lt_succ hn)
  | @dir i j l hdir _ hlt hf ih =>
    cases n with
    | zero => cases hn
    | succ n =>
      have hle := hf.le
      apply findEntry_cons hs (by omega) hj (hq i List.mem_cons_self)
      rw [hdir]
      exact ih (fun k hk => hq k (List.mem_cons_of_mem _ hk)) hj (Nat.lt_of_succ_lt_succ hn)

/-- Looking up a component in a directory. -/
theorem findEntry_find (hs : Holds s t) {tail : List UInt8} {want : Bool} (hd : d < t.count)
    (hdir : t.isDir d = true) (hc : 47 ∉ c) (ht : tail = [] ∨ tail.head? = some 47) :
    findEntry s (c ++ tail) want (fstNextDir s d) fstFuel (u32 (d + 1)) =
      some ((t.tree.find d c).filter fun k => t.isDir k || !want) := by
  have hfits := hs.fits
  have hf := t.family d hd hdir
  have hw := t.within d hd hdir
  have hlen := hf.length_le
  have hu : u32 (d + 1) = d + 1 := Nat.mod_eq_of_lt (by omega)
  have hq : ∀ k ∈ t.children d,
      isSameMem s.mem (c ++ tail) (u32 (s.fstStringStartAddr + fstStringOff s k)) = t.tree.same c k := by
    intro k hk
    obtain ⟨h₁, h₂⟩ := t.child hd hdir hk
    exact isSameMem_eq (hs.names k (by omega) h₂) (t.proper d k hd hdir hk).2.1 hc ht
  rw [hs.nexts d hd hdir, hu, findEntry_eq hs hq hf hw (by unfold fstFuel; omega)]
  exact congrArg some (Tree.find?_and _ (t.tree_distinct hd hdir))

end SdkPort.DVD
