import Mathlib.Data.List.Basic
import Mathlib.Algebra.BigOperators.Group.List.Basic
import Mathlib.Algebra.Order.Ring.Int
import Mathlib.Order.Lattice.Nat

/-!
# Blocks of a byte range

A list of blocks covers each byte some number of times; it is a partition of a set of
bytes when it covers them once. A list is canonical when it is in order and no block
touches the next. Canonical lists are determined by the bytes they cover, which is what
makes a coalescing free list independent of its history.
-/
namespace SdkPort.Blocks

structure Block where
  addr : Nat
  size : Nat
  deriving DecidableEq, Repr

namespace Block

/-- The first byte past the block. -/
def stop (b : Block) : Nat := b.addr + b.size

def Has (b : Block) (x : Nat) : Prop := b.addr ≤ x ∧ x < b.stop

instance (b : Block) (x : Nat) : Decidable (b.Has x) := inferInstanceAs (Decidable (_ ∧ _))

end Block

variable {l l' u v : List Block} {a b c n : Block} {x req least : Nat}

/-- How many blocks of the list contain the byte. -/
def cover (l : List Block) (x : Nat) : Nat := l.countP fun b => b.Has x

@[simp] theorem cover_nil (x : Nat) : cover [] x = 0 := rfl

theorem cover_cons (b : Block) (l : List Block) (x : Nat) :
    cover (b :: l) x = cover l x + if b.Has x then 1 else 0 := by
  simp [cover, List.countP_cons]

theorem cover_append (u v : List Block) (x : Nat) : cover (u ++ v) x = cover u x + cover v x := by
  simp [cover, List.countP_append]

theorem cover_perm (h : l.Perm l') (x : Nat) : cover l x = cover l' x := h.countP_eq _

theorem cover_eq_zero : cover l x = 0 ↔ ∀ b ∈ l, ¬ b.Has x := by
  simp [cover, List.countP_eq_zero]

theorem cover_pos (hb : b ∈ l) (hx : b.Has x) : 0 < cover l x := by
  rw [Nat.pos_iff_ne_zero]
  exact fun h => cover_eq_zero.mp h b hb hx

/-- The bytes of all blocks together. -/
def total (l : List Block) : Nat := (l.map (·.size)).sum

@[simp] theorem total_nil : total [] = 0 := rfl
@[simp] theorem total_cons (b : Block) (l : List Block) : total (b :: l) = b.size + total l := by
  simp [total]
@[simp] theorem total_append (u v : List Block) : total (u ++ v) = total u + total v := by
  simp [total]

theorem total_perm (h : l.Perm l') : total l = total l' := (h.map _).sum_eq

theorem size_le_total (hb : b ∈ l) : b.size ≤ total l := by
  induction l with
  | nil => cases hb
  | cons c l ih =>
    rw [total_cons]
    rcases List.mem_cons.mp hb with rfl | hb
    · omega
    · have := ih hb
      omega

/-- In order, no block touching the next, and none empty. -/
structure Canon (l : List Block) : Prop where
  apart : l.Pairwise fun b c => b.stop < c.addr
  pos : ∀ b ∈ l, 0 < b.size

theorem canon_nil : Canon [] := ⟨.nil, by simp⟩

theorem canon_cons : Canon (b :: l) ↔ (∀ c ∈ l, b.stop < c.addr) ∧ 0 < b.size ∧ Canon l := by
  constructor
  · intro h
    obtain ⟨h₁, h₂⟩ := List.pairwise_cons.mp h.apart
    exact ⟨h₁, h.pos b (by simp), h₂, fun c hc => h.pos c (by simp [hc])⟩
  · rintro ⟨h₁, h₀, h⟩
    refine ⟨List.pairwise_cons.mpr ⟨h₁, h.apart⟩, ?_⟩
    intro c hc
    rcases List.mem_cons.mp hc with rfl | hc
    · exact h₀
    · exact h.pos c hc

/-- From the first block on that is not below an address, none is. -/
theorem Canon.le_dropWhile (h : Canon l) (x : Nat) : ∀ c ∈ l.dropWhile (·.addr < x), x ≤ c.addr := by
  induction l with
  | nil => simp
  | cons b l ih =>
    obtain ⟨hb, _, hl⟩ := canon_cons.mp h
    by_cases hx : b.addr < x
    · rw [List.dropWhile_cons_of_pos (by simpa using hx)]
      exact ih hl
    · rw [List.dropWhile_cons_of_neg (by simpa using hx)]
      intro c hc
      rcases List.mem_cons.mp hc with rfl | hc
      · omega
      · have := hb c hc
        simp only [Block.stop] at this
        omega

/-- A block in front of a list, merged with the first of it if they touch. -/
def join (b : Block) : List Block → List Block
  | [] => [b]
  | n :: l => if b.stop = n.addr then ⟨b.addr, b.size + n.size⟩ :: l else b :: n :: l

theorem cover_join (b : Block) (l : List Block) (x : Nat) : cover (join b l) x = cover (b :: l) x := by
  cases l with
  | nil => rfl
  | cons n l =>
    rw [join]
    split
    · rename_i h
      have hboth : (Block.mk b.addr (b.size + n.size)).Has x ↔ b.Has x ∨ n.Has x := by
        simp only [Block.Has, Block.stop] at h ⊢
        omega
      have hone : b.Has x → ¬ n.Has x := by
        simp only [Block.Has]
        omega
      simp only [cover_cons, hboth]
      by_cases hb : b.Has x <;> by_cases hn : n.Has x <;> simp_all
    · rfl

theorem total_join (b : Block) (l : List Block) : total (join b l) = b.size + total l := by
  cases l with
  | nil => simp [join]
  | cons n l =>
    rw [join]
    split <;> simp [Nat.add_assoc]

theorem mem_join (h : c ∈ join b l) : c.addr = b.addr ∨ c ∈ l := by
  cases l with
  | nil =>
    left
    rw [List.mem_singleton.mp h]
  | cons n l =>
    rw [join] at h
    split at h
    · rcases List.mem_cons.mp h with rfl | h
      · exact .inl rfl
      · exact .inr (by simp [h])
    · rcases List.mem_cons.mp h with rfl | h
      · exact .inl rfl
      · exact .inr h

/-- Joining keeps the address of the first block. -/
theorem join_eq_cons (b : Block) (l : List Block) :
    ∃ s k, join b l = ⟨b.addr, s⟩ :: k ∧ k.Sublist l := by
  cases l with
  | nil => exact ⟨_, _, rfl, .slnil⟩
  | cons n l =>
    rw [join]
    split
    · exact ⟨_, _, rfl, List.sublist_cons_self n l⟩
    · exact ⟨_, _, rfl, List.Sublist.refl _⟩

/-- What merging touching blocks keeps holds of all blocks after a join. -/
theorem forall_join {P : Block → Prop}
    (hm : ∀ b n : Block, P b → P n → b.stop = n.addr → P ⟨b.addr, b.size + n.size⟩) (hb : P b)
    (hl : ∀ c ∈ l, P c) : ∀ c ∈ join b l, P c := by
  cases l with
  | nil => simpa [join] using hb
  | cons n l =>
    rw [join]
    split
    · rename_i ht
      intro c hc
      rcases List.mem_cons.mp hc with rfl | hc
      · exact hm b n hb (hl n (by simp)) ht
      · exact hl c (by simp [hc])
    · intro c hc
      rcases List.mem_cons.mp hc with rfl | hc
      · exact hb
      · exact hl c hc

theorem join_of_ne {k : List Block} (h : b.stop ≠ n.addr) : join b (n :: k) = b :: n :: k := by
  rw [join, if_neg h]

theorem canon_join (h : Canon l) (hb : 0 < b.size) (hle : ∀ c ∈ l, b.stop ≤ c.addr) :
    Canon (join b l) := by
  cases l with
  | nil => exact canon_cons.mpr ⟨by simp, hb, canon_nil⟩
  | cons n l =>
    obtain ⟨hn, hn0, hl⟩ := canon_cons.mp h
    have hbn := hle n (by simp)
    rw [join]
    split
    · rename_i he
      refine canon_cons.mpr ⟨?_, Nat.add_pos_left hb _, hl⟩
      intro c hc
      have := hn c hc
      simp only [Block.stop] at he this ⊢
      omega
    · rename_i he
      refine canon_cons.mpr ⟨?_, hb, h⟩
      intro c hc
      rcases List.mem_cons.mp hc with rfl | hc
      · omega
      · have := hn c hc
        simp only [Block.stop] at this hbn ⊢
        omega

/-- Insertion in order of address with merging on both sides. -/
def insertBlock (b : Block) : List Block → List Block
  | [] => [b]
  | n :: l => if b.addr ≤ n.addr then join b (n :: l) else join n (insertBlock b l)

theorem cover_insertBlock (b : Block) (l : List Block) (x : Nat) :
    cover (insertBlock b l) x = cover (b :: l) x := by
  induction l with
  | nil => rfl
  | cons n l ih =>
    rw [insertBlock]
    split
    · exact cover_join b (n :: l) x
    · rw [cover_join, cover_cons, ih]
      simp only [cover_cons]
      omega

theorem total_insertBlock (b : Block) (l : List Block) : total (insertBlock b l) = b.size + total l := by
  induction l with
  | nil => simp [insertBlock]
  | cons n l ih =>
    rw [insertBlock]
    split
    · exact total_join b (n :: l)
    · rw [total_join, ih, total_cons]
      omega

theorem mem_insertBlock (h : c ∈ insertBlock b l) : c.addr = b.addr ∨ ∃ n ∈ l, c.addr = n.addr := by
  induction l with
  | nil =>
    left
    rw [List.mem_singleton.mp h]
  | cons n l ih =>
    rw [insertBlock] at h
    split at h
    · rcases mem_join h with h | h
      · exact .inl h
      · exact .inr ⟨c, h, rfl⟩
    · rcases mem_join h with h | h
      · exact .inr ⟨n, by simp, h⟩
      · rcases ih h with h | ⟨m, hm, he⟩
        · exact .inl h
        · exact .inr ⟨m, by simp [hm], he⟩

theorem forall_insertBlock {P : Block → Prop}
    (hm : ∀ b n : Block, P b → P n → b.stop = n.addr → P ⟨b.addr, b.size + n.size⟩) (hb : P b)
    (hl : ∀ c ∈ l, P c) : ∀ c ∈ insertBlock b l, P c := by
  induction l with
  | nil => simpa [insertBlock] using hb
  | cons n l ih =>
    rw [insertBlock]
    split
    · exact forall_join hm hb hl
    · exact forall_join hm (hl n (by simp)) (ih fun c hc => hl c (by simp [hc]))

/-- Two blocks without a common byte. -/
def Disjoint (b c : Block) : Prop := b.stop ≤ c.addr ∨ c.stop ≤ b.addr

instance (b c : Block) : Decidable (Disjoint b c) := inferInstanceAs (Decidable (_ ∨ _))

instance : Std.Symm Disjoint := ⟨fun _ _ h => Or.symm h⟩

/-- Blocks that cover no byte twice lie apart. -/
theorem pairwise_disjoint (h : ∀ x, cover l x ≤ 1) (hp : ∀ b ∈ l, 0 < b.size) : l.Pairwise Disjoint := by
  induction l with
  | nil => exact .nil
  | cons b l ih =>
    refine List.pairwise_cons.mpr ⟨?_, ih ?_ fun c hc => hp c (by simp [hc])⟩
    · intro c hc
      have hb0 := hp b (by simp)
      have hc0 := hp c (by simp [hc])
      by_contra hn
      have hx : b.Has (max b.addr c.addr) ∧ c.Has (max b.addr c.addr) := by
        simp only [Disjoint, Block.Has, Block.stop] at hn ⊢
        omega
      have := h (max b.addr c.addr)
      have hpos := cover_pos hc hx.2
      rw [cover_cons, if_pos hx.1] at this
      omega
    · intro x
      have := h x
      rw [cover_cons] at this
      omega

theorem mul_length_le_total (h : ∀ b ∈ l, x ≤ b.size) : x * l.length ≤ total l := by
  induction l with
  | nil => simp
  | cons b l ih =>
    have hb := h b (by simp)
    have hl := ih fun c hc => h c (by simp [hc])
    rw [total_cons, List.length_cons, Nat.mul_succ]
    omega

theorem canon_insertBlock (h : Canon l) (hb : 0 < b.size) (hd : ∀ c ∈ l, Disjoint b c) :
    Canon (insertBlock b l) := by
  induction l with
  | nil => exact canon_cons.mpr ⟨by simp, hb, canon_nil⟩
  | cons n l ih =>
    obtain ⟨hn, hn0, hl⟩ := canon_cons.mp h
    have hbn := hd n (by simp)
    rw [insertBlock]
    split
    · rename_i hle
      apply canon_join h hb
      intro c hc
      have hdc := hd c hc
      have h0 := h.pos c hc
      have hnc : n.addr ≤ c.addr := by
        rcases List.mem_cons.mp hc with rfl | hc
        · exact le_rfl
        · have := hn c hc
          simp only [Block.stop] at this
          omega
      simp only [Disjoint, Block.stop] at hdc ⊢
      omega
    · rename_i hlt
      apply canon_join (ih hl fun c hc => hd c (by simp [hc])) hn0
      intro c hc
      rcases mem_insertBlock hc with he | ⟨m, hm, he⟩
      · simp only [Disjoint, Block.stop] at hbn ⊢
        omega
      · rw [he]
        exact (hn m hm).le

/-- Insertion in front of all. -/
theorem insertBlock_of_le (h : ∀ c ∈ l, b.addr ≤ c.addr) : insertBlock b l = join b l := by
  cases l with
  | nil => rfl
  | cons c l => exact if_pos (h c (by simp))

/-- Insertion in the middle: the merge with the predecessor and the one with the successor. -/
theorem insertBlock_append (h : Canon (u ++ a :: v)) (ha : a.addr < b.addr)
    (hv : ∀ c ∈ v, b.addr ≤ c.addr) : insertBlock b (u ++ a :: v) = u ++ join a (join b v) := by
  induction u with
  | nil =>
    rw [List.nil_append, insertBlock, if_neg (by omega), insertBlock_of_le hv, List.nil_append]
  | cons n u ih =>
    obtain ⟨hn, hn0, hl⟩ := canon_cons.mp h
    have hna := hn a (by simp)
    rw [List.cons_append, insertBlock, if_neg (by simp only [Block.stop] at hna; omega), ih hl]
    -- the predecessor does not touch what comes after it
    have hjoin : ∃ c k, u ++ join a (join b v) = c :: k ∧ n.stop < c.addr := by
      cases u with
      | nil =>
        obtain ⟨s, k, hs, _⟩ := join_eq_cons a (join b v)
        exact ⟨_, k, hs, hna⟩
      | cons c u => exact ⟨c, _, rfl, hn c (by simp)⟩
    obtain ⟨c, k, hk, hnc⟩ := hjoin
    rw [List.cons_append, hk, join_of_ne hnc.ne]

/-- Up to the end of the first block of a canonical list, what is covered is that block. -/
theorem Canon.cover_first (h : Canon (b :: l)) (hx : x ≤ b.stop) :
    cover (b :: l) x = 0 ↔ x < b.addr ∨ x = b.stop := by
  obtain ⟨hb, hb0, _⟩ := canon_cons.mp h
  rw [cover_eq_zero]
  constructor
  · intro hn
    have := hn b (by simp)
    simp only [Block.Has] at this
    omega
  · intro hc c hcm hcx
    simp only [Block.Has, Block.stop] at hcx hc hx
    rcases List.mem_cons.mp hcm with rfl | hcm
    · omega
    · have := hb c hcm
      simp only [Block.stop] at this
      omega

/-- The rest of a canonical list covers what comes after its first block. -/
theorem Canon.cover_rest (h : Canon (b :: l)) :
    cover l x = 0 ↔ x ≤ b.stop ∨ cover (b :: l) x = 0 := by
  obtain ⟨hb, _, _⟩ := canon_cons.mp h
  constructor
  · intro hl
    by_cases hx : x ≤ b.stop
    · exact .inl hx
    · right
      rw [cover_cons, hl, if_neg (fun hbx => hx hbx.2.le)]
  · rintro (hx | hx)
    · rw [cover_eq_zero]
      intro c hc hcx
      have := hb c hc
      simp only [Block.Has] at hcx
      omega
    · rw [cover_cons] at hx
      omega

/-- Two canonical lists that cover the same bytes are equal. -/
theorem canon_unique (h : Canon l) (h' : Canon l') (hc : ∀ x, cover l x = 0 ↔ cover l' x = 0) :
    l = l' := by
  have hne : ∀ {b : Block} {k : List Block}, Canon (b :: k) → cover (b :: k) b.addr ≠ 0 := by
    intro b k hk
    have := (canon_cons.mp hk).2.1
    rw [Ne, hk.cover_first (by simp only [Block.stop]; omega)]
    simp only [Block.stop]
    omega
  induction l generalizing l' with
  | nil =>
    cases l' with
    | nil => rfl
    | cons b l' => exact absurd ((hc b.addr).mp rfl) (hne h')
  | cons a l ih =>
    cases l' with
    | nil => exact absurd ((hc a.addr).mpr rfl) (hne h)
    | cons b l' =>
      have ha0 := (canon_cons.mp h).2.1
      have hb0 := (canon_cons.mp h').2.1
      have haddr : a.addr = b.addr := by
        have h₁ := (hc a.addr).not.mp (hne h)
        have h₂ := (hc b.addr).not.mpr (hne h')
        rcases Nat.lt_trichotomy a.addr b.addr with hlt | he | hlt
        · rw [h'.cover_first (by simp only [Block.stop]; omega)] at h₁
          exact absurd (.inl hlt) h₁
        · exact he
        · rw [h.cover_first (by simp only [Block.stop]; omega)] at h₂
          exact absurd (.inl hlt) h₂
      have hstop : a.stop = b.stop := by
        rcases Nat.lt_trichotomy a.stop b.stop with hlt | he | hlt
        · have h₁ := (hc a.stop).mp ((h.cover_first le_rfl).mpr (.inr rfl))
          rw [h'.cover_first hlt.le] at h₁
          simp only [Block.stop] at h₁ hlt
          omega
        · exact he
        · have h₂ := (hc b.stop).mpr ((h'.cover_first le_rfl).mpr (.inr rfl))
          rw [h.cover_first hlt.le] at h₂
          simp only [Block.stop] at h₂ hlt
          omega
      have hab : a = b := by
        cases a
        cases b
        simp only [Block.stop] at haddr hstop
        subst haddr
        simp only [Block.mk.injEq, true_and]
        omega
      subst hab
      rw [ih (canon_cons.mp h).2.2 (canon_cons.mp h').2.2]
      intro x
      rw [h.cover_rest, h'.cover_rest, hc]

/-- First fit: the block handed out and what is left, splitting off a rest of at least
`least`. -/
def takeFit (least req : Nat) : List Block → Option (Block × List Block)
  | [] => none
  | b :: l =>
    if req ≤ b.size then
      if b.size - req < least then some (b, l)
      else some (⟨b.addr, req⟩, ⟨b.addr + req, b.size - req⟩ :: l)
    else (takeFit least req l).map fun p => (p.1, b :: p.2)

/-- Where first fit stops, and what it does there. -/
theorem takeFit_some {p : Block × List Block} (h : takeFit least req l = some p) :
    ∃ u b v, l = u ++ b :: v ∧ (∀ c ∈ u, ¬ req ≤ c.size) ∧ req ≤ b.size ∧
      p = if b.size - req < least then (b, u ++ v)
        else (⟨b.addr, req⟩, u ++ ⟨b.addr + req, b.size - req⟩ :: v) := by
  induction l generalizing p with
  | nil => cases h
  | cons b l ih =>
    by_cases hr : req ≤ b.size
    · refine ⟨[], b, l, rfl, by simp, hr, ?_⟩
      rw [takeFit, if_pos hr] at h
      split at h
      · rename_i hl
        rw [if_pos hl]
        exact (Option.some.inj h).symm
      · rename_i hl
        rw [if_neg hl]
        exact (Option.some.inj h).symm
    · rw [takeFit, if_neg hr] at h
      obtain ⟨q, hq, rfl⟩ := Option.map_eq_some_iff.mp h
      obtain ⟨u, c, v, rfl, hu, hc, rfl⟩ := ih hq
      refine ⟨b :: u, c, v, rfl, List.forall_mem_cons.mpr ⟨hr, hu⟩, hc, ?_⟩
      split <;> rfl

theorem takeFit_eq_none (h : takeFit least req l = none) : ∀ b ∈ l, ¬ req ≤ b.size := by
  induction l with
  | nil => simp
  | cons b l ih =>
    rw [takeFit] at h
    split at h
    · split at h <;> cases h
    · rename_i hr
      exact List.forall_mem_cons.mpr ⟨hr, ih (Option.map_eq_none_iff.mp h)⟩

theorem takeFit_cover {p : Block × List Block} (h : takeFit least req l = some p) (x : Nat) :
    cover (p.1 :: p.2) x = cover l x := by
  induction l generalizing p with
  | nil => cases h
  | cons b l ih =>
    rw [takeFit] at h
    split at h
    · rename_i hr
      split at h
      · cases h
        rfl
      · cases h
        have hone : ∀ x, (Block.mk b.addr req).Has x → ¬ (Block.mk (b.addr + req) (b.size - req)).Has x := by
          intro x
          simp only [Block.Has, Block.stop]
          omega
        have hboth : b.Has x ↔ (Block.mk b.addr req).Has x ∨
            (Block.mk (b.addr + req) (b.size - req)).Has x := by
          simp only [Block.Has, Block.stop]
          omega
        simp only [cover_cons, hboth]
        have := hone x
        by_cases h₁ : (Block.mk b.addr req).Has x <;>
          by_cases h₂ : (Block.mk (b.addr + req) (b.size - req)).Has x <;> simp_all
    · obtain ⟨q, hq, rfl⟩ := Option.map_eq_some_iff.mp h
      have := ih hq
      simp only [cover_cons] at this ⊢
      omega

theorem takeFit_total {p : Block × List Block} (h : takeFit least req l = some p) :
    p.1.size + total p.2 = total l := by
  induction l generalizing p with
  | nil => cases h
  | cons b l ih =>
    rw [takeFit] at h
    split at h
    · split at h
      · cases h
        simp
      · cases h
        simp only [total_cons]
        omega
    · obtain ⟨q, hq, rfl⟩ := Option.map_eq_some_iff.mp h
      have := ih hq
      simp only [total_cons]
      omega

/-- What is handed out starts where a block started; what is left starts there or past
the requested size. -/
theorem takeFit_mem {p : Block × List Block} (h : takeFit least req l = some p) :
    (∃ b ∈ l, p.1.addr = b.addr ∧ req ≤ p.1.size ∧ (p.1.size = req ∨ p.1.size = b.size)) ∧
      ∀ c ∈ p.2, c ∈ l ∨ ∃ b ∈ l, c.addr = b.addr + req ∧ c.size = b.size - req ∧ least ≤ c.size := by
  induction l generalizing p with
  | nil => cases h
  | cons b l ih =>
    rw [takeFit] at h
    split at h
    · rename_i hr
      split at h
      · cases h
        exact ⟨⟨b, by simp, rfl, hr, .inr rfl⟩, fun c hc => .inl (by simp [hc])⟩
      · rename_i hl
        cases h
        refine ⟨⟨b, by simp, rfl, le_rfl, .inl rfl⟩, ?_⟩
        intro c hc
        rcases List.mem_cons.mp hc with rfl | hc
        · exact .inr ⟨b, by simp, rfl, rfl, by simpa using hl⟩
        · exact .inl (by simp [hc])
    · obtain ⟨q, hq, rfl⟩ := Option.map_eq_some_iff.mp h
      obtain ⟨⟨d, hd, he⟩, hrest⟩ := ih hq
      refine ⟨⟨d, by simp [hd], he⟩, ?_⟩
      intro c hc
      rcases List.mem_cons.mp hc with rfl | hc
      · exact .inl (by simp)
      · rcases hrest c hc with hc | ⟨d, hd, he⟩
        · exact .inl (by simp [hc])
        · exact .inr ⟨d, by simp [hd], he⟩

/-- What splitting keeps holds of the block handed out and of what is left. -/
theorem forall_takeFit {P : Block → Prop} {p : Block × List Block} (h : takeFit least req l = some p)
    (hl : ∀ b ∈ l, P b) (hs : ∀ b : Block, P b → req ≤ b.size → least ≤ b.size - req →
      P ⟨b.addr, req⟩ ∧ P ⟨b.addr + req, b.size - req⟩) : P p.1 ∧ ∀ c ∈ p.2, P c := by
  induction l generalizing p with
  | nil => cases h
  | cons b l ih =>
    have hb := hl b (by simp)
    have hl' : ∀ c ∈ l, P c := fun c hc => hl c (by simp [hc])
    rw [takeFit] at h
    split at h
    · rename_i hr
      split at h
      · cases h
        exact ⟨hb, hl'⟩
      · rename_i hle
        cases h
        obtain ⟨h₁, h₂⟩ := hs b hb hr (Nat.le_of_not_lt hle)
        exact ⟨h₁, List.forall_mem_cons.mpr ⟨h₂, hl'⟩⟩
    · obtain ⟨q, hq, rfl⟩ := Option.map_eq_some_iff.mp h
      obtain ⟨h₁, h₂⟩ := ih hq hl'
      exact ⟨h₁, List.forall_mem_cons.mpr ⟨hb, h₂⟩⟩

theorem canon_takeFit {p : Block × List Block} (h : takeFit least req l = some p) (hc : Canon l)
    (h0 : 0 < least) : Canon p.2 := by
  induction l generalizing p with
  | nil => cases h
  | cons b l ih =>
    obtain ⟨hb, hb0, hl⟩ := canon_cons.mp hc
    rw [takeFit] at h
    split at h
    · split at h
      · cases h
        exact hl
      · cases h
        refine canon_cons.mpr ⟨?_, ?_, hl⟩
        · intro c hcm
          have := hb c hcm
          simp only [Block.stop] at this ⊢
          omega
        · show 0 < b.size - req
          omega
    · obtain ⟨q, hq, rfl⟩ := Option.map_eq_some_iff.mp h
      refine canon_cons.mpr ⟨?_, hb0, ih hq hl⟩
      intro c hcm
      rcases (takeFit_mem hq).2 c hcm with hcm | ⟨d, hd, he, _⟩
      · exact hb c hcm
      · have := hb d hd
        omega

end SdkPort.Blocks
