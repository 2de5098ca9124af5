import Mathlib.Tactic.IntervalCases
import SdkPort.DVD.FstTree

/-!
# Paths

What a path means: its components between slashes, each looked up in the directory the
ones before it lead to. The conversion of the source finds exactly that.
-/
namespace SdkPort.DVD

open Gc (u32)
open PathTree (Tree)

/-- A component of a path. An empty one, as in front of a leading slash, is the root. -/
def part (c : List UInt8) : PathTree.Part (List UInt8) :=
  if c = [] then .root else if c = [46] then .here else if c = [46, 46] then .up else .name c

/-- The 8.3 format: no space, at most one dot, with at most eight characters in front of it
and at most three behind it. -/
def shortName (c : List UInt8) : Bool :=
  !c.contains 32 && match c.splitOn 46 with
    | [_] => true
    | [base, extention] => decide (base.length ≤ 8) && decide (extention.length ≤ 3)
    | _ => false

def legal (short : Bool) (c : List UInt8) : Bool := !short || shortName c

/-- The entry a path names, seen from a directory: its components one by one, all but a last
one directories. A path that ends in a slash names a directory. -/
def Fst.resolve (t : Fst) (short : Bool) (cur : Nat) (path : List UInt8) : Option Nat :=
  let cs := path.splitOn 47
  (t.tree.walk (legal short) cur (cs.dropLast.map part)).bind fun e =>
    let c := cs.getLastD []
    if c = [] then some e else t.tree.step (legal short) e (part c)

variable {s : St} {t : Fst} {short : Bool} {d e i k n pos : Nat} {l : List Nat}
  {c u v path rest tail : List UInt8} {isDir : Nat → Bool} {next parent : Nat → Nat} {j : Nat}

/-- What lies between the indices of a family is in it or below it. -/
theorem Family.cover (h : Family isDir next parent d i j l) (hi : i ≤ k) (hj : k < j) :
    k ∈ l ∨ ∃ c ∈ l, isDir c = true ∧ c < k ∧ k < next c := by
  induction h with
  | nil j => omega
  | @file i j l _ _ ih =>
    by_cases hk : k = i
    · exact .inl (hk ▸ List.mem_cons_self)
    · cases ih (by omega) hj with
      | inl hm => exact .inl (List.mem_cons_of_mem _ hm)
      | inr hm =>
        obtain ⟨c, hc, h⟩ := hm
        exact .inr ⟨c, List.mem_cons_of_mem _ hc, h⟩
  | @dir i j l hdir _ _ _ ih =>
    by_cases hk : k = i
    · exact .inl (hk ▸ List.mem_cons_self)
    · by_cases hn : k < next i
      · exact .inr ⟨i, List.mem_cons_self, hdir, by omega, hn⟩
      · cases ih (by omega) hj with
        | inl hm => exact .inl (List.mem_cons_of_mem _ hm)
        | inr hm =>
          obtain ⟨c, hc, h⟩ := hm
          exact .inr ⟨c, List.mem_cons_of_mem _ hc, h⟩

namespace Fst

/-- Every entry below a directory is the child of one. -/
theorem exists_child (t : Fst) (hd : d < t.count) (hdir : t.isDir d = true) (hk : d < k) (hn : k < t.next d) :
    ∃ e, e < k ∧ t.isDir e = true ∧ k ∈ t.children e := by
  induction h : k - d using Nat.strongRecOn generalizing d with
  | ind m ih =>
    cases (t.family d hd hdir).cover hk hn with
    | inl hm => exact ⟨d, hk, hdir, hm⟩
    | inr hm =>
      obtain ⟨c, hc, hcdir, hck, hkn⟩ := hm
      obtain ⟨h₁, h₂⟩ := t.child hd hdir hc
      exact ih (k - c) (by omega) h₂ hcdir hck hkn rfl

/-- The parent of a directory is a directory it is listed in. -/
theorem parent_dir (t : Fst) (hd : d < t.count) (hdir : t.isDir d = true) (h0 : d ≠ 0) :
    t.parent d < d ∧ t.isDir (t.parent d) = true ∧ d ∈ t.children (t.parent d) := by
  obtain ⟨e, hed, hedir, hm⟩ := t.exists_child t.count_pos t.root_dir (k := d) (by omega)
    (by rw [t.root_next]; exact hd)
  have hp := (t.family e (by omega) hedir).parent_eq hm hdir
  rw [hp]
  exact ⟨hed, hedir, hm⟩

theorem parent_mem (t : Fst) (hd : d < t.count) (hdir : t.isDir d = true) :
    t.parent d < t.count ∧ t.isDir (t.parent d) = true := by
  by_cases h0 : d = 0
  · rw [h0, t.root_parent]
    exact ⟨t.count_pos, t.root_dir⟩
  · obtain ⟨h₁, h₂, _⟩ := t.parent_dir hd hdir h0
    exact ⟨by omega, h₂⟩

end Fst

section Scan

theorem scanLong_eq (hc : 47 ∉ c) (ht : tail = [] ∨ tail.head? = some 47) :
    scanLong (c ++ tail) pos = pos + c.length := by
  induction c generalizing pos with
  | nil =>
    cases tail with
    | nil => rfl
    | cons z tail =>
      have hz : z = 47 := by simpa using ht
      simp [scanLong, hz]
  | cons y c ih =>
    have hy : y ≠ 47 := fun he => hc (he ▸ List.mem_cons_self)
    rw [List.cons_append, scanLong, if_neg hy, ih fun hm => hc (List.mem_cons_of_mem _ hm), List.length_cons]
    omega

theorem scanShort_end (ht : tail = [] ∨ tail.head? = some 47) {x : Option Nat} {b : Bool} :
    scanShort tail pos x b = (b, pos, x) := by
  cases tail with
  | nil => rfl
  | cons z tail =>
    have hz : z = 47 := by simpa using ht
    simp [scanShort, hz]

/-- Characters without a dot. -/
theorem scanShort_append (hu : 47 ∉ u) (hd : 46 ∉ u) {x : Option Nat} {b : Bool} :
    scanShort (u ++ tail) pos x b = scanShort tail (pos + u.length) x (b || u.contains 32) := by
  induction u generalizing pos b with
  | nil => simp
  | cons y u ih =>
    have hy : y ≠ 47 := fun he => hu (he ▸ List.mem_cons_self)
    have hy' : y ≠ 46 := fun he => hd (he ▸ List.mem_cons_self)
    have ih' := @ih (pos + 1)
    rw [List.cons_append, scanShort, if_neg hy, if_neg hy']
    split
    · rename_i h32
      rw [ih (fun hm => hu (List.mem_cons_of_mem _ hm)) fun hm => hd (List.mem_cons_of_mem _ hm)]
      simp [h32, Nat.add_comm, Nat.add_left_comm]
    · rename_i h32
      rw [ih (fun hm => hu (List.mem_cons_of_mem _ hm)) fun hm => hd (List.mem_cons_of_mem _ hm)]
      have h32' : ¬ (32 : UInt8) = y := fun he => h32 he.symm
      simp [h32', Nat.add_comm, Nat.add_left_comm]

/-- A list with a mark in it splits at the first one. -/
theorem split_first {x : UInt8} (h : x ∈ c) : ∃ u v, c = u ++ x :: v ∧ x ∉ u := by
  induction c with
  | nil => cases h
  | cons y c ih =>
    by_cases hy : y = x
    · exact ⟨[], c, by rw [hy]; rfl, List.not_mem_nil⟩
    · obtain ⟨u, v, hc, hu⟩ := ih ((List.mem_cons.mp h).resolve_left (Ne.symm hy))
      refine ⟨y :: u, v, by rw [hc]; rfl, ?_⟩
      intro hm
      cases List.mem_cons.mp hm with
      | inl he => exact hy he.symm
      | inr hm => exact hu hm

theorem shortName_plain (hd : 46 ∉ c) : shortName c = !c.contains 32 := by
  rw [shortName, List.splitOn_eq_singleton hd, Bool.and_true]

theorem shortName_dot (hu : 46 ∉ u) (hv : 46 ∉ v) : shortName (u ++ 46 :: v) =
    (!(u ++ 46 :: v).contains 32 && (decide (u.length ≤ 8) && decide (v.length ≤ 3))) := by
  rw [shortName, List.splitOn_append_cons_self_of_not_mem hu, List.splitOn_eq_singleton hv]

theorem shortName_dots (hu : 46 ∉ u) (hv : 46 ∈ v) : shortName (u ++ 46 :: v) = false := by
  obtain ⟨w, z, rfl, hw⟩ := split_first hv
  obtain ⟨y, l, hl⟩ := List.exists_cons_of_ne_nil (List.splitOn_ne_nil 46 z)
  rw [shortName, List.splitOn_append_cons_self_of_not_mem hu, List.splitOn_append_cons_self_of_not_mem hw, hl]
  simp

/-- The first dot. -/
theorem scanShort_dot {b : Bool} :
    scanShort (46 :: c) pos none b =
      if 8 < pos then (true, pos, none) else scanShort c (pos + 1) (some (pos + 1)) b := by
  simp [scanShort]

/-- A second dot. -/
theorem scanShort_dots {i : Nat} {b : Bool} : scanShort (46 :: c) pos (some i) b = (true, pos, some i) := by
  simp [scanShort]

/-- The check of the source is that of the format. -/
theorem scan_eq (hc : 47 ∉ c) (ht : tail = [] ∨ tail.head? = some 47) :
    scan s (c ++ tail) = if legal (s.longFileNameFlag = 0) c then some c.length else none := by
  by_cases hf : s.longFileNameFlag = 0
  · rw [scan, if_pos hf]
    by_cases hd : 46 ∈ c
    · obtain ⟨u, v, rfl, hu⟩ := split_first hd
      have hcu : 47 ∉ u := fun hm => hc (List.mem_append_left _ hm)
      have hcv : 47 ∉ v := fun hm => hc (List.mem_append_right _ (List.mem_cons_of_mem _ hm))
      rw [List.append_assoc, List.cons_append, scanShort_append hcu hu, scanShort_dot]
      by_cases h8 : 8 < 0 + u.length
      · rw [if_pos h8]
        have hno : legal true (u ++ 46 :: v) = false := by
          by_cases hv : 46 ∈ v
          · simp [legal, shortName_dots hu hv]
          · have hle : ¬ u.length ≤ 8 := by omega
            simp [legal, shortName_dot hu hv, hle]
        simp [hf, hno]
      · rw [if_neg h8]
        by_cases hv : 46 ∈ v
        · have hno : legal true (u ++ 46 :: v) = false := by simp [legal, shortName_dots hu hv]
          obtain ⟨w, z, rfl, hw⟩ := split_first hv
          have hcw : 47 ∉ w := fun hm => hcv (List.mem_append_left _ hm)
          rw [List.append_assoc, List.cons_append, scanShort_append hcw hw, scanShort_dots]
          simp [hf, hno]
        · rw [scanShort_append hcv hv, scanShort_end ht]
          have hle : u.length ≤ 8 := by omega
          by_cases h3 : 3 < v.length
          · have h3' : ¬ v.length ≤ 3 := by omega
            simp [hf, legal, shortName_dot hu hv, h3, h3']
          · have h3' : v.length ≤ 3 := by omega
            by_cases h32 : 32 ∈ u ∨ 32 ∈ v
            · simp [hf, legal, shortName_dot hu hv, h32]
            · simp only [not_or] at h32
              simp [hf, legal, shortName_dot hu hv, h32, h3', h3, hle]
              omega
    · rw [scanShort_append hc hd, scanShort_end ht]
      simp [legal, hf, shortName_plain hd]
  · rw [scan, if_neg hf, scanLong_eq hc ht]
    simp [legal, hf]

end Scan

section Walk

theorem resolve_last (hc : 47 ∉ c) :
    t.resolve short d c = if c = [] then some d else t.tree.step (legal short) d (part c) := by
  rw [Fst.resolve, List.splitOn_eq_singleton hc]
  rfl

theorem resolve_cons (hc : 47 ∉ c) : t.resolve short d (c ++ 47 :: rest) =
    (t.tree.enter (legal short) d (part c)).bind fun e => t.resolve short e rest := by
  obtain ⟨y, l, hl⟩ := List.exists_cons_of_ne_nil (List.splitOn_ne_nil 47 rest)
  simp only [Fst.resolve, List.splitOn_append_cons_self_of_not_mem hc, hl]
  exact Option.bind_assoc _ _ _

theorem front_root : front s d (47 :: rest) = .go 0 rest := by simp [front]

theorem front_here : front s d (46 :: 47 :: rest) = .go d rest := by simp [front]

theorem front_up : front s d (46 :: 46 :: 47 :: rest) = .go (fstParentDir s d) rest := by simp [front]

/-- Any other component is a name. -/
theorem front_name (hc : 47 ∉ c) (h0 : c ≠ []) (h1 : c ≠ [46]) (h2 : c ≠ [46, 46]) :
    front s d (c ++ tail) = .name := by
  cases c with
  | nil => exact absurd rfl h0
  | cons x c =>
    have hx : x ≠ 47 := fun he => hc (he ▸ List.mem_cons_self)
    by_cases hx' : x = 46
    · subst hx'
      cases c with
      | nil => exact absurd rfl h1
      | cons y c =>
        have hy : y ≠ 47 := fun he => hc (he ▸ by simp)
        by_cases hy' : y = 46
        · subst hy'
          cases c with
          | nil => exact absurd rfl h2
          | cons z c =>
            have hz : z ≠ 47 := fun he => hc (he ▸ by simp)
            simp [front, hz]
        · simp [front, hy, hy']
    · simp [front, hx, hx']

/-- A name is looked up; what is left of the path follows if it led to a directory. -/
theorem walkPath_name (hs : Holds s t) (hd : d < t.count) (hdir : t.isDir d = true) (hc : 47 ∉ c)
    (hpart : part c = .name c) (h0 : c ≠ []) (ht : tail = [] ∨ tail.head? = some 47) :
    walkPath s (n + 1) d (c ++ tail) =
      match (t.tree.step (legal (s.longFileNameFlag = 0)) d (part c)).filter
        fun k => t.isDir k || !decide (tail ≠ []) with
      | none => some none
      | some i => if tail ≠ [] then walkPath s n i tail.tail else some (some i) := by
  have h1 : c ≠ [46] := by
    rintro rfl
    cases hpart
  have h2 : c ≠ [46, 46] := by
    rintro rfl
    cases hpart
  have hlen : c.length < (c ++ tail).length ↔ tail ≠ [] := by
    rw [List.length_append, ← List.length_pos_iff]
    omega
  have hdrop : (c ++ tail).drop (c.length + 1) = tail.tail := by
    rw [← List.drop_drop, List.drop_left, List.drop_one]
  rw [walkPath, front_name hc h0 h1 h2, scan_eq hc ht, hpart, Tree.step]
  by_cases hl : legal (s.longFileNameFlag = 0) c = true
  · rw [if_pos hl, if_pos hl]
    simp only [hlen, findEntry_find hs hd hdir hc ht, hdrop]
    cases (t.tree.find d c).filter fun k => t.isDir k || !decide (tail ≠ []) <;> rfl
  · rw [if_neg hl, if_neg hl]
    rfl

theorem walkPath_root : walkPath s (n + 1) d (47 :: rest) = walkPath s n 0 rest := by
  rw [walkPath, front_root]

theorem walkPath_here : walkPath s (n + 1) d (46 :: 47 :: rest) = walkPath s n d rest := by
  rw [walkPath, front_here]

theorem walkPath_up : walkPath s (n + 1) d (46 :: 46 :: 47 :: rest) = walkPath s n (fstParentDir s d) rest := by
  rw [walkPath, front_up]

theorem part_cases (c : List UInt8) : c = [] ∨ c = [46] ∨ c = [46, 46] ∨ c ≠ [] ∧ part c = .name c := by
  by_cases h0 : c = []
  · exact .inl h0
  · by_cases h1 : c = [46]
    · exact .inr (.inl h1)
    · by_cases h2 : c = [46, 46]
      · exact .inr (.inr (.inl h2))
      · exact .inr (.inr (.inr ⟨h0, by rw [part, if_neg h0, if_neg h1, if_neg h2]⟩))

theorem step_mem {p : PathTree.Part (List UInt8)} (hd : d < t.count) (hdir : t.isDir d = true)
    (h : t.tree.step (legal short) d p = some e) : e < t.count := by
  cases p with
  | root =>
    cases h
    exact t.count_pos
  | here =>
    cases h
    exact hd
  | up =>
    cases h
    exact (t.parent_mem hd hdir).1
  | name c =>
    rw [Tree.step] at h
    split at h
    · exact (t.child hd hdir (Tree.mem_of_find h).1).2
    · cases h

/-- The entry a walk of the source arrives at is the one the path names. -/
theorem walkPath_eq (hs : Holds s t) (hd : d < t.count) (hdir : t.isDir d = true) (hn : path.length < n) :
    walkPath s n d path = some (t.resolve (s.longFileNameFlag = 0) d path) := by
  induction n generalizing d path with
  | zero => cases hn
  | succ n ih =>
    obtain ⟨hpar, hpardir⟩ := t.parent_mem hd hdir
    by_cases hmem : 47 ∈ path
    · obtain ⟨c, rest, rfl, hc⟩ := split_first hmem
      rw [List.length_append, List.length_cons] at hn
      have hrest : ∀ e, e < t.count → t.isDir e = true →
          walkPath s n e rest = some (t.resolve (s.longFileNameFlag = 0) e rest) :=
        fun e he hedir => ih he hedir (by omega)
      rw [resolve_cons hc]
      rcases part_cases c with rfl | rfl | rfl | ⟨h0, hpart⟩
      · rw [Tree.enter_eq (e := 0) rfl t.root_dir, Option.bind_some, ← hrest 0 t.count_pos t.root_dir]
        exact walkPath_root
      · rw [Tree.enter_eq (e := d) rfl hdir, Option.bind_some, ← hrest d hd hdir]
        exact walkPath_here
      · rw [Tree.enter_eq (e := t.parent d) rfl hpardir, Option.bind_some, ← hrest _ hpar hpardir,
          ← hs.parents d hd hdir]
        exact walkPath_up
      · have htail : 47 :: rest = [] ∨ (47 :: rest).head? = some 47 := .inr rfl
        have hname := walkPath_name (n := n) hs hd hdir hc hpart h0 htail
        rw [hname, Tree.enter]
        simp only [ne_eq, reduceCtorEq, not_false_iff, decide_true, Bool.not_true, Bool.or_false, if_true]
        cases he : (t.tree.step (legal (s.longFileNameFlag = 0)) d (part c)).filter t.isDir with
        | none =>
          have he' : (t.tree.step (legal (s.longFileNameFlag = 0)) d (part c)).filter t.tree.isDir = none := he
          rw [he']
          rfl
        | some e =>
          obtain ⟨hstep, hedir⟩ := Option.filter_eq_some_iff.mp he
          have he' : (t.tree.step (legal (s.longFileNameFlag = 0)) d (part c)).filter t.tree.isDir = some e := he
          rw [he', Option.bind_some]
          exact hrest e (step_mem hd hdir hstep) hedir
    · rw [resolve_last hmem]
      rcases part_cases path with rfl | rfl | rfl | ⟨h0, hpart⟩
      · rfl
      · rfl
      · exact congrArg (fun x => some (some x)) (hs.parents d hd hdir)
      · have htail : ([] : List UInt8) = [] ∨ ([] : List UInt8).head? = some 47 := .inl rfl
        have hname := walkPath_name (n := n) hs hd hdir hmem hpart h0 htail
        rw [List.append_nil] at hname
        rw [hname, if_neg h0]
        simp only [ne_eq, not_true, decide_false, Bool.not_false, Bool.or_true, if_false]
        cases t.tree.step (legal (s.longFileNameFlag = 0)) d (part path) <;> rfl

theorem walk_mem {ps : List (PathTree.Part (List UInt8))} (hd : d < t.count) (hdir : t.isDir d = true)
    (h : t.tree.walk (legal short) d ps = some e) : e < t.count ∧ t.isDir e = true := by
  induction ps generalizing d with
  | nil =>
    cases h
    exact ⟨hd, hdir⟩
  | cons p ps ih =>
    obtain ⟨i, hi, hw⟩ := Option.bind_eq_some_iff.mp h
    obtain ⟨hstep, hidir⟩ := Option.filter_eq_some_iff.mp hi
    exact ih (step_mem hd hdir hstep) hidir hw

theorem resolve_lt (hd : d < t.count) (hdir : t.isDir d = true) (h : t.resolve short d path = some e) :
    e < t.count := by
  obtain ⟨i, hi, he⟩ := Option.bind_eq_some_iff.mp h
  obtain ⟨hi, hidir⟩ := walk_mem hd hdir hi
  dsimp only at he
  split at he
  · cases he
    exact hi
  · exact step_mem hi hidir he

end Walk

/-- A table is in memory, and one of its directories is the current one. -/
structure Mounted (s : St) (t : Fst) : Prop where
  holds : Holds (ready s) t
  lt : (ready s).currentDirectory < t.count
  dir : t.isDir (ready s).currentDirectory = true

theorem s32_eq (hs : Holds s t) (he : e < t.count) : s32 e = e := by
  have hfits := hs.fits
  have hu : u32 e = e := Nat.mod_eq_of_lt (by omega)
  rw [s32, hu, if_pos (by omega)]

theorem longFileNameFlag_ready (s : St) : (ready s).longFileNameFlag = s.longFileNameFlag := by
  unfold ready dvdFSInit
  split
  · dsimp only
    split <;> rfl
  · rfl

/-- The conversion, for any path. -/
theorem convert_eq (h : Mounted s t) (path : List UInt8) : DVDConvertPathToEntrynum s path =
    some (((t.resolve (s.longFileNameFlag = 0) (ready s).currentDirectory path).elim (-1) (fun e => (e : Int))),
      ready s) := by
  have hw := walkPath_eq h.holds h.lt h.dir (Nat.lt_succ_self path.length)
  have hmax : (ready s).fstMaxEntryNum ≠ 0 := by
    rw [h.holds.max]
    exact Nat.ne_of_gt t.count_pos
  rw [longFileNameFlag_ready] at hw
  rw [DVDConvertPathToEntrynum, if_pos hmax, hw, Option.map_some]
  cases hr : t.resolve (s.longFileNameFlag = 0) (ready s).currentDirectory path with
  | none => rfl
  | some e => simp [s32_eq h.holds (resolve_lt h.lt h.dir hr)]

/-- Path resolution is exact: an entry is returned exactly when the path names it, and -1
exactly when it names none. -/
theorem path_resolution (h : Mounted s t) (path : List UInt8) :
    ∃ r, DVDConvertPathToEntrynum s path = some (r, ready s) ∧
      (∀ e : Nat, r = e ↔ t.resolve (s.longFileNameFlag = 0) (ready s).currentDirectory path = some e) ∧
      (r = -1 ↔ t.resolve (s.longFileNameFlag = 0) (ready s).currentDirectory path = none) := by
  refine ⟨_, convert_eq h path, ?_, ?_⟩
  · intro e
    cases t.resolve (s.longFileNameFlag = 0) (ready s).currentDirectory path with
    | none => simp
    | some i => simp
  · cases t.resolve (s.longFileNameFlag = 0) (ready s).currentDirectory path with
    | none => simp
    | some i => simp

section Trial

/-- A directory with one file in it, in memory behind an empty page. -/
def trialBytes : List UInt8 :=
  [1, 0, 0, 0, 0, 0, 0, 0, 0, 0, 0, 3,
   1, 0, 0, 0, 0, 0, 0, 0, 0, 0, 0, 3,
   0, 0, 0, 2, 0, 0, 0, 0, 0, 0, 0, 0,
   97, 0, 66, 0]

def trialDisc : St where
  mem := ⟨64, 40, fun i => trialBytes.getD i 0⟩
  fstStartAddr := 64
  fstStringStartAddr := 100
  fstMaxEntryNum := 3
  currentDirectory := 1
  longFileNameFlag := 0
  testPaths := []

def trialFst : Fst where
  count := 3
  isDir := fun i => i < 2
  next := fun _ => 3
  parent := fun _ => 0
  name := fun i => if i = 1 then [97] else [66]
  children := fun i => [i + 1]
  count_pos := by decide
  root_dir := rfl
  root_parent := rfl
  root_next := rfl
  within := fun _ _ _ => Nat.le_refl 3
  family := by
    intro d _ hdir
    have hd : d < 2 := of_decide_eq_true hdir
    interval_cases d
    · exact .dir rfl rfl (by decide) (.nil 3)
    · exact .file rfl (.nil 3)
  proper := by
    intro d i _ hdir hi
    have hd : d < 2 := of_decide_eq_true hdir
    rw [List.mem_singleton.mp hi]
    interval_cases d <;> decide
  distinct := fun _ _ _ => List.pairwise_singleton _ _

theorem trialDisc_mounted : Mounted trialDisc trialFst := by
  refine ⟨⟨rfl, by decide, by decide +kernel, by decide +kernel, by decide +kernel, ?_⟩, by decide, rfl⟩
  intro i h0 hi
  have hi : i < 3 := hi
  interval_cases i
  · exact ⟨by decide +kernel, by decide, .inr (by decide +kernel)⟩
  · exact ⟨by decide +kernel, by decide, .inr (by decide +kernel)⟩

/-- From the directory up and down again to the file, in the other case. -/
theorem trialDisc_path : ∃ r, DVDConvertPathToEntrynum trialDisc [46, 46, 47, 65, 47, 98] = some (r, trialDisc) ∧
    r = 2 := by
  obtain ⟨r, hr, he, _⟩ := path_resolution trialDisc_mounted [46, 46, 47, 65, 47, 98]
  exact ⟨r, hr, (he 2).mpr (by decide +kernel)⟩

end Trial

end SdkPort.DVD
