import Mathlib.Data.List.Basic

/-!
# Walking a tree of named entries

Entries of a tree are found by name among the children of a directory. A path is a list
of parts; every part but a last one must lead to a directory.
-/
namespace SdkPort.PathTree

variable {ι ν : Type} {legal : ν → Bool} {d e i : ι} {n : ν} {l : List ι}

/-- The root, the entry where one stands, its parent, or the child of a name. -/
inductive Part (ν : Type) where
  | root
  | here
  | up
  | name (n : ν)
  deriving DecidableEq

/-- `same` says that a name is that of an entry. -/
structure Tree (ι ν : Type) where
  root : ι
  isDir : ι → Bool
  parent : ι → ι
  children : ι → List ι
  same : ν → ι → Bool

namespace Tree

variable {t : Tree ι ν}

def find (t : Tree ι ν) (d : ι) (n : ν) : Option ι := (t.children d).find? (t.same n)

/-- One part of a path; names that are not legal are not looked up. -/
def step (t : Tree ι ν) (legal : ν → Bool) (d : ι) : Part ν → Option ι
  | .root => some t.root
  | .here => some d
  | .up => some (t.parent d)
  | .name n => if legal n then t.find d n else none

/-- A part that must lead to a directory. -/
def enter (t : Tree ι ν) (legal : ν → Bool) (d : ι) (p : Part ν) : Option ι :=
  (t.step legal d p).filter t.isDir

def walk (t : Tree ι ν) (legal : ν → Bool) : ι → List (Part ν) → Option ι
  | d, [] => some d
  | d, p :: ps => (t.enter legal d p).bind fun e => t.walk legal e ps

theorem enter_eq {p : Part ν} (h : t.step legal d p = some e) (he : t.isDir e) : t.enter legal d p = some e := by
  rw [enter, h, Option.filter_some_pos he]

/-- At most one child of a directory has a name. -/
def Distinct (t : Tree ι ν) (d : ι) : Prop :=
  ∀ n, ∀ i ∈ t.children d, ∀ j ∈ t.children d, t.same n i → t.same n j → i = j

theorem find_eq_some (hd : t.Distinct d) (hi : i ∈ t.children d) (hn : t.same n i) : t.find d n = some i := by
  unfold find
  cases hf : (t.children d).find? (t.same n) with
  | none => exact absurd hn (List.find?_eq_none.mp hf i hi)
  | some j =>
    have hj := List.find?_some hf
    rw [hd n i hi j (List.mem_of_find?_eq_some hf) hn hj]

theorem mem_of_find (h : t.find d n = some i) : i ∈ t.children d ∧ t.same n i :=
  ⟨List.mem_of_find?_eq_some h, List.find?_some h⟩

/-- Where names are distinct, passing over entries finds the same as rejecting the one found. -/
theorem find?_and (q : ι → Bool) (hd : t.Distinct d) :
    ((t.children d).find? fun i => q i && t.same n i) = (t.find d n).filter q := by
  cases hf : t.find d n with
  | none =>
    rw [Option.filter_none, List.find?_eq_none]
    intro i hi hq
    rw [Bool.and_eq_true] at hq
    exact List.find?_eq_none.mp hf i hi hq.2
  | some i =>
    obtain ⟨hi, hn⟩ := mem_of_find hf
    by_cases hq : q i
    · rw [Option.filter_some_pos hq]
      cases hg : (t.children d).find? fun i => q i && t.same n i with
      | none =>
        have hno := List.find?_eq_none.mp hg i hi
        exact absurd (Bool.and_eq_true_iff.mpr ⟨hq, hn⟩) hno
      | some j =>
        have hqj := List.find?_some (p := fun i => q i && t.same n i) hg
        have hj := Bool.and_eq_true_iff.mp hqj
        rw [hd n i hi j (List.mem_of_find?_eq_some hg) hn hj.2]
    · rw [Option.filter_some_neg (Bool.not_eq_true _ ▸ hq), List.find?_eq_none]
      intro j hj hqj
      rw [Bool.and_eq_true] at hqj
      rw [hd n i hi j hj hn hqj.2] at hq
      exact hq hqj.1

/-- The entries met on the way down from a directory, each a directory. -/
inductive Descent (t : Tree ι ν) : ι → List ι → ι → Prop
  | here (d : ι) : Descent t d [] d
  | down {d i e : ι} {l : List ι} :
      i ∈ t.children d → t.isDir i → Descent t i l e → Descent t d (i :: l) e

theorem Descent.snoc (h : Descent t d l e) (hi : i ∈ t.children e) (hdir : t.isDir i) :
    Descent t d (l ++ [i]) i := by
  induction h with
  | here d => exact .down hi hdir (.here i)
  | down hj hj' _ ih => exact .down hj hj' (ih hi)

end Tree

end SdkPort.PathTree
