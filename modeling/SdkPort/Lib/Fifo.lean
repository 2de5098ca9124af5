import Mathlib.Data.List.Nodup
import Mathlib.Logic.Function.Basic

/-!
# Singly linked queues

A queue is a head, a tail and one link function on its elements, ended by a null
element. The tail only counts while the queue is not empty. Elements leave at the
head and enter behind the tail.
-/
namespace SdkPort.Fifo

variable {α : Type} {nil : α} {next next' : α → α} {h t t' x y : α} {l : List α}

/-- Head, tail and links of a queue that holds `l`. -/
def Line (nil : α) (next : α → α) (h t : α) : List α → Prop
  | [] => h = nil
  | x :: l => h = x ∧ x ≠ nil ∧ (l = [] → t = x) ∧ Line nil next (next x) t l

/-- The head is null exactly when the queue is empty. -/
theorem Line.head_eq_nil (hq : Line nil next h t l) : h = nil ↔ l = [] := by
  cases l with
  | nil => exact ⟨fun _ => rfl, fun _ => hq⟩
  | cons x l =>
    obtain ⟨rfl, hx, _⟩ := hq
    exact ⟨fun he => absurd he hx, nofun⟩

theorem Line.tail_mem (hq : Line nil next h t l) (hl : l ≠ []) : t ∈ l := by
  induction l generalizing h with
  | nil => exact absurd rfl hl
  | cons x l ih =>
    obtain ⟨_, _, hlast, hq⟩ := hq
    by_cases he : l = []
    · rw [hlast he]
      exact List.mem_cons_self
    · exact List.mem_cons_of_mem _ (ih hq he)

theorem Line.congr (hq : Line nil next h t l) (hn : ∀ x ∈ l, next' x = next x) :
    Line nil next' h t l := by
  induction l generalizing h with
  | nil => exact hq
  | cons x l ih =>
    obtain ⟨hh, hx, hlast, hq⟩ := hq
    refine ⟨hh, hx, hlast, ?_⟩
    rw [hn x List.mem_cons_self]
    exact ih hq fun y hy => hn y (List.mem_cons_of_mem _ hy)

theorem line_single (hx : x ≠ nil) (hn : next x = nil) : Line nil next x x [x] :=
  ⟨rfl, hx, fun _ => rfl, hn⟩

/-- A new element behind the tail of a queue that is not empty. -/
theorem Line.push (hq : Line nil next h t l) (hl : l ≠ []) (hd : l.Nodup) (hx : x ≠ nil)
    (hxl : x ∉ l) (ht : next' t = x) (hnx : next' x = nil) (hn : ∀ y ∈ l, y ≠ t → next' y = next y) :
    Line nil next' h x (l ++ [x]) := by
  induction l generalizing h with
  | nil => exact absurd rfl hl
  | cons y l ih =>
    obtain ⟨hh, hy, hlast, hq⟩ := hq
    rw [List.nodup_cons] at hd
    refine ⟨hh, hy, fun he => absurd he (by simp), ?_⟩
    by_cases he : l = []
    · subst he
      have hty : t = y := hlast rfl
      rw [← hty, ht]
      exact line_single hx hnx
    · have hne : y ≠ t := fun hty => hd.1 (hty ▸ hq.tail_mem he)
      rw [hn y List.mem_cons_self hne]
      exact ih hq he hd.2 (fun hm => hxl (List.mem_cons_of_mem _ hm))
        fun z hz => hn z (List.mem_cons_of_mem _ hz)

/-- The elements a queue reaches from its head. -/
inductive Reach (nil : α) (next : α → α) : α → α → Prop
  | here {x : α} : x ≠ nil → Reach nil next x x
  | link {x y : α} : x ≠ nil → Reach nil next (next x) y → Reach nil next x y

theorem not_reach_nil (nil : α) (next : α → α) (y : α) : ¬ Reach nil next nil y := by
  intro h
  cases h with
  | here hn => exact hn rfl
  | link hn _ => exact hn rfl

theorem Line.reach_iff (hq : Line nil next h t l) : Reach nil next h x ↔ x ∈ l := by
  induction l generalizing h with
  | nil =>
    have hh : h = nil := hq
    rw [hh]
    exact ⟨fun hr => absurd hr (not_reach_nil nil next x), fun hm => absurd hm List.not_mem_nil⟩
  | cons y l ih =>
    obtain ⟨rfl, hy, _, hq⟩ := hq
    rw [List.mem_cons, ← ih hq]
    constructor
    · intro hr
      cases hr with
      | here _ => exact .inl rfl
      | link _ hr => exact .inr hr
    · intro hm
      cases hm with
      | inl he =>
        subst he
        exact .here hy
      | inr hr => exact .link hy hr

end SdkPort.Fifo
