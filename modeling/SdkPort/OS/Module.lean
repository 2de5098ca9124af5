import SdkPort.Lib.Linked

/-!
# The list of linked modules

`OSModule.c`: modules are linked behind a tail and unlinked from anywhere. That a module is
linked is not recorded; it is read off its own link words and the head of the list.
-/
namespace SdkPort.OSModule

open Function (update update_self update_of_ne)
open Linked (Dll)

/-- `__OSModuleInfoList` and the link words of all modules. Null is 0. -/
structure ModuleInfoList where
  head : Nat
  tail : Nat
  next : Nat → Nat
  prev : Nat → Nat

namespace ModuleInfoList

def setNext (s : ModuleInfoList) (x v : Nat) : ModuleInfoList := { s with next := update s.next x v }
def setPrev (s : ModuleInfoList) (x v : Nat) : ModuleInfoList := { s with prev := update s.prev x v }

end ModuleInfoList

def OSLink (s : ModuleInfoList) (newModule : Nat) : Bool × ModuleInfoList :=
  if newModule = 0 then (false, s)
  else if s.head = newModule ∨ s.prev newModule ≠ 0 ∨ s.next newModule ≠ 0 then (true, s)
  else
    let s := s.setPrev newModule s.tail
    let s := s.setNext newModule 0
    let s := if s.tail ≠ 0 then s.setNext s.tail newModule else { s with head := newModule }
    (true, { s with tail := newModule })

def OSUnlink (s : ModuleInfoList) (oldModule : Nat) : Bool × ModuleInfoList :=
  if oldModule = 0 then (false, s)
  else if s.head ≠ oldModule ∧ s.prev oldModule = 0 ∧ s.next oldModule = 0 then (false, s)
  else
    let s := if s.prev oldModule ≠ 0 then s.setNext (s.prev oldModule) (s.next oldModule)
      else { s with head := s.next oldModule }
    let s := if s.next oldModule ≠ 0 then s.setPrev (s.next oldModule) (s.prev oldModule)
      else { s with tail := s.prev oldModule }
    let s := s.setPrev oldModule 0
    let s := s.setNext oldModule 0
    (true, s)

inductive ModuleCall where
  | link (newModule : Nat)
  | unlink (oldModule : Nat)
  deriving DecidableEq, Repr

namespace ModuleCall

def module : ModuleCall → Nat
  | link x | unlink x => x

def exec (s : ModuleInfoList) : ModuleCall → Bool × ModuleInfoList
  | link x => OSLink s x
  | unlink x => OSUnlink s x

/-- The calls on a list of modules in link order. -/
def spec (L : List Nat) : ModuleCall → Bool × List Nat
  | link x => if x = 0 then (false, L) else if x ∈ L then (true, L) else (true, L ++ [x])
  | unlink x => if x ∈ L then (true, L.erase x) else (false, L)

end ModuleCall

def runCalls (s : ModuleInfoList) (calls : List ModuleCall) : ModuleInfoList :=
  calls.foldl (fun s c => (c.exec s).2) s

def specCalls (L : List Nat) (calls : List ModuleCall) : List Nat := calls.foldl (fun L c => (c.spec L).2) L

variable {s s' : ModuleInfoList} {modules : Nat → Prop} {L : List Nat} {x : Nat}

/-- The list holds these modules, and the words of the others are zero. -/
structure Holds (modules : Nat → Prop) (s : ModuleInfoList) (L : List Nat) : Prop where
  dll : Dll 0 s.next s.prev s.head s.tail L
  known : ∀ x ∈ L, modules x
  others : ∀ x, modules x → x ∉ L → s.next x = 0 ∧ s.prev x = 0

namespace Holds

/-- The inference of a module's membership from its words is exact. -/
theorem linked_iff (h : Holds modules s L) (hx : modules x) (h0 : x ≠ 0) :
    s.head = x ∨ s.prev x ≠ 0 ∨ s.next x ≠ 0 ↔ x ∈ L := by
  constructor
  · intro hw
    by_contra hm
    obtain ⟨hn, hp⟩ := h.others x hx hm
    obtain rfl | hw | hw := hw
    · have hL : L ≠ [] := fun he => h0 (h.dll.head_eq_nil.mpr he)
      apply hm
      rw [h.dll.head_eq]
      exact Linked.firstOf_mem hL
    · exact hw hp
    · exact hw hn
  · intro hm
    obtain ⟨u, v, rfl⟩ := List.append_of_mem hm
    cases List.eq_nil_or_concat u with
    | inl hu =>
      left
      rw [h.dll.head_eq, hu]
      rfl
    | inr hu =>
      obtain ⟨u, z, rfl⟩ := hu
      right
      left
      rw [h.dll.links.1, List.concat_eq_append, Linked.lastOf_append]
      rintro rfl
      exact h.dll.nil_not_mem (by simp)

theorem link_again (h : Holds modules s L) (hx : x ∈ L) : OSLink s x = (true, s) := by
  have h0 : x ≠ 0 := fun he => h.dll.nil_not_mem (he ▸ hx)
  rw [OSLink, if_neg h0, if_pos ((h.linked_iff (h.known x hx) h0).mpr hx)]

theorem unlink_unknown (h : Holds modules s L) (hx : modules x) (hm : x ∉ L) : OSUnlink s x = (false, s) := by
  by_cases h0 : x = 0
  · rw [OSUnlink, if_pos h0]
  · have hw := fun hw => hm ((h.linked_iff hx h0).mp hw)
    rw [OSUnlink, if_neg h0]
    exact if_pos (by tauto)

/-- A module goes behind the tail. -/
theorem link (h : Holds modules s L) (hx : modules x) (h0 : x ≠ 0) (hm : x ∉ L) :
    ∃ s', OSLink s x = (true, s') ∧ Holds modules s' (L ++ [x]) := by
  have htail : s.tail ≠ x := by
    rintro rfl
    have hL : L ≠ [] := fun he => h0 (h.dll.tail_eq_nil.mpr he)
    apply hm
    rw [h.dll.tail_eq]
    exact Linked.lastOf_mem hL
  have hlink : OSLink s x = (true, {
      head := if s.tail = 0 then x else s.head
      tail := x
      next := if s.tail = 0 then update s.next x 0 else update (update s.next x 0) s.tail x
      prev := update s.prev x s.tail }) := by
    rw [OSLink, if_neg h0, if_neg fun hw => hm ((h.linked_iff hx h0).mp hw)]
    by_cases ht : s.tail = 0
    · simp [ModuleInfoList.setNext, ModuleInfoList.setPrev, ht]
    · simp [ModuleInfoList.setNext, ModuleInfoList.setPrev, ht]
  refine ⟨_, hlink, ?_, ?_, ?_⟩
  · apply h.dll.pushBack h0 hm
    · intro y hy
      dsimp only
      by_cases ht : s.tail = 0
      · rw [if_pos ht, Function.update_apply, ht, if_neg hy]
      · rw [if_neg ht]
        by_cases hyx : y = x
        · rw [if_pos hyx, update_of_ne (hyx ▸ Ne.symm htail), hyx, update_self]
        · rw [if_neg hyx, Function.update_apply, update_of_ne hyx]
    · intro y _
      exact Function.update_apply ..
  · intro y hy
    cases List.mem_append.mp hy with
    | inl hy => exact h.known y hy
    | inr hy => exact List.mem_singleton.mp hy ▸ hx
  · intro y hy hyL
    rw [List.mem_append, not_or, List.mem_singleton] at hyL
    obtain ⟨hn, hp⟩ := h.others y hy hyL.1
    have hyt : s.tail ≠ 0 → y ≠ s.tail := by
      rintro ht rfl
      have hL : L ≠ [] := fun he => ht (h.dll.tail_eq_nil.mpr he)
      apply hyL.1
      rw [h.dll.tail_eq]
      exact Linked.lastOf_mem hL
    dsimp only
    constructor
    · by_cases ht : s.tail = 0
      · rw [if_pos ht, update_of_ne hyL.2, hn]
      · rw [if_neg ht, update_of_ne (hyt ht), update_of_ne hyL.2, hn]
    · rw [update_of_ne hyL.2, hp]

/-- A module is taken out, and its words are cleared. -/
theorem unlink (h : Holds modules s L) (hm : x ∈ L) :
    ∃ s', OSUnlink s x = (true, s') ∧ Holds modules s' (L.erase x) := by
  have h0 : x ≠ 0 := fun he => h.dll.nil_not_mem (he ▸ hm)
  obtain ⟨u, v, hL⟩ := List.append_of_mem hm
  have hd := h.dll
  rw [hL] at hd
  have hxu : x ∉ u := fun hu => (List.nodup_append.mp hd.nodup).2.2 x hu x List.mem_cons_self rfl
  have hxv : x ∉ v := (List.nodup_cons.mp hd.nodup.of_append_right).1
  have hprev : s.prev x ≠ x := by
    rw [hd.links.1]
    intro he
    cases List.eq_nil_or_concat u with
    | inl hu => exact h0 (by rw [← he, hu]; rfl)
    | inr hu => exact hxu (he ▸ Linked.lastOf_mem (by rw [hu.choose_spec.choose_spec]; simp))
  have hnext : s.next x ≠ x := by
    rw [hd.links.2]
    intro he
    cases v with
    | nil => exact h0 he.symm
    | cons z v => exact hxv (he ▸ List.mem_cons_self)
  have hunlink : OSUnlink s x = (true, {
      head := if s.prev x = 0 then s.next x else s.head
      tail := if s.next x = 0 then s.prev x else s.tail
      next := update (if s.prev x = 0 then s.next else update s.next (s.prev x) (s.next x)) x 0
      prev := update (if s.next x = 0 then s.prev else update s.prev (s.next x) (s.prev x)) x 0 }) := by
    have hw := (h.linked_iff (h.known x hm) h0).mpr hm
    rw [OSUnlink, if_neg h0, if_neg (by tauto)]
    by_cases hp : s.prev x = 0 <;> by_cases hn : s.next x = 0 <;>
      simp [ModuleInfoList.setNext, ModuleInfoList.setPrev, hp, hn, hprev.symm]
  have herase : L.erase x = u ++ v := by
    rw [hL, List.erase_append_right _ hxu, List.erase_cons_head]
  refine ⟨_, hunlink, ?_, ?_, ?_⟩
  · rw [herase]
    apply hd.remove
    · intro z hz hzx
      dsimp only
      rw [update_of_ne hzx]
      by_cases hp : s.prev x = 0
      · rw [if_pos hp, hp, if_neg hz]
      · rw [if_neg hp, Function.update_apply]
    · intro z hz hzx
      dsimp only
      rw [update_of_ne hzx]
      by_cases hn : s.next x = 0
      · rw [if_pos hn, hn, if_neg hz]
      · rw [if_neg hn, Function.update_apply]
  · intro y hy
    exact h.known y (List.mem_of_mem_erase hy)
  · intro y hy hyL
    dsimp only
    by_cases hyx : y = x
    · subst hyx
      exact ⟨update_self .., update_self ..⟩
    · have hyo : y ∉ L := fun hm => hyL ((List.mem_erase_of_ne hyx).mpr hm)
      obtain ⟨hn, hp⟩ := h.others y hy hyo
      have hown : ∀ w, w ≠ 0 → w = Linked.lastOf 0 u ∨ w = Linked.firstOf 0 v → y ≠ w := by
        rintro w hw (rfl | rfl) rfl
        · apply hyo
          rw [hL]
          exact List.mem_append_left _ (Linked.lastOf_mem_of_ne hw)
        · apply hyo
          rw [hL]
          exact List.mem_append_right _ (List.mem_cons_of_mem _ (Linked.firstOf_mem_of_ne hw))
      rw [update_of_ne hyx, update_of_ne hyx]
      constructor
      · by_cases hp0 : s.prev x = 0
        · rw [if_pos hp0, hn]
        · rw [if_neg hp0, update_of_ne (hown _ hp0 (.inl hd.links.1)), hn]
      · by_cases hn0 : s.next x = 0
        · rw [if_pos hn0, hp]
        · rw [if_neg hn0, update_of_ne (hown _ hn0 (.inr hd.links.2)), hp]

/-- A call returns what it should, and leaves the list it should. -/
theorem call (h : Holds modules s L) (c : ModuleCall) (hc : modules c.module) :
    ∃ s', c.exec s = ((c.spec L).1, s') ∧ Holds modules s' (c.spec L).2 := by
  cases c with
  | link x =>
    by_cases h0 : x = 0
    · exact ⟨s, by simp [ModuleCall.exec, ModuleCall.spec, OSLink, h0], by simpa [ModuleCall.spec, h0] using h⟩
    · by_cases hm : x ∈ L
      · refine ⟨s, ?_, ?_⟩
        · rw [ModuleCall.exec, ModuleCall.spec, if_neg h0, if_pos hm, h.link_again hm]
        · rw [ModuleCall.spec, if_neg h0, if_pos hm]
          exact h
      · rw [ModuleCall.spec, if_neg h0, if_neg hm]
        exact h.link hc h0 hm
  | unlink x =>
    by_cases hm : x ∈ L
    · rw [ModuleCall.spec, if_pos hm]
      exact h.unlink hm
    · rw [ModuleCall.spec, if_neg hm]
      exact ⟨s, h.unlink_unknown hc hm, h⟩

/-- The list before anything was linked. -/
theorem empty (hh : s.head = 0) (ht : s.tail = 0) (hw : ∀ x, modules x → s.next x = 0 ∧ s.prev x = 0) :
    Holds modules s [] := by
  refine ⟨?_, nofun, fun x hx _ => hw x hx⟩
  rw [hh, ht]
  exact Dll.empty

theorem run (h : Holds modules s L) (calls : List ModuleCall) (hc : ∀ c ∈ calls, modules c.module) :
    Holds modules (runCalls s calls) (specCalls L calls) := by
  induction calls generalizing s L with
  | nil => exact h
  | cons c calls ih =>
    obtain ⟨s', hr, h'⟩ := h.call c (hc c List.mem_cons_self)
    have hs : runCalls s (c :: calls) = runCalls s' calls := by
      rw [runCalls, List.foldl_cons, hr]
      rfl
    rw [hs]
    exact ih h' fun c' hc' => hc c' (List.mem_cons_of_mem _ hc')

end Holds

/-- After any calls on modules whose words were zero, the list is that of the modules linked
and not unlinked since, in link order, and the next call returns what it does on that
list. Linking a module again and unlinking a module that is not there change nothing. -/
theorem moduleList_refines (hh : s.head = 0) (ht : s.tail = 0)
    (hw : ∀ x, modules x → s.next x = 0 ∧ s.prev x = 0) (calls : List ModuleCall)
    (hc : ∀ c ∈ calls, modules c.module) :
    Dll 0 (runCalls s calls).next (runCalls s calls).prev (runCalls s calls).head (runCalls s calls).tail
      (specCalls [] calls) ∧
    (∀ c : ModuleCall, modules c.module → (c.exec (runCalls s calls)).1 = (c.spec (specCalls [] calls)).1) ∧
    (∀ x ∈ specCalls [] calls, OSLink (runCalls s calls) x = (true, runCalls s calls)) ∧
    ∀ x, modules x → x ∉ specCalls [] calls → OSUnlink (runCalls s calls) x = (false, runCalls s calls) := by
  have h := (Holds.empty hh ht hw).run calls hc
  refine ⟨h.dll, ?_, fun x hx => h.link_again hx, fun x hx hm => h.unlink_unknown hx hm⟩
  intro c hc
  obtain ⟨s', hr, _⟩ := h.call c hc
  rw [hr]

section Trial

def trialModules : ModuleInfoList := ⟨0, 0, fun _ => 0, fun _ => 0⟩

/-- The first of three modules is linked again behind the others. -/
theorem trialModules_relinked : OSLink (runCalls trialModules
    [.link 16, .link 32, .link 48, .unlink 16, .link 16]) 16 = (true, runCalls trialModules
    [.link 16, .link 32, .link 48, .unlink 16, .link 16]) :=
  (@moduleList_refines trialModules (fun x => x ≠ 0) rfl rfl (fun _ _ => ⟨rfl, rfl⟩)
    [.link 16, .link 32, .link 48, .unlink 16, .link 16] (by decide)).2.2.1 16 (by decide)

end Trial

end SdkPort.OSModule
