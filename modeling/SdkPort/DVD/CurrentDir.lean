import Mathlib.Logic.Relation
import SdkPort.DVD.FstPath

/-!
# The current directory

What is written for a directory are the names on the way down to it. Followed from the
root they lead back to it.
-/
namespace SdkPort.DVD

open Gc (GcMem u32)
open PathTree (Tree)
open PathTree.Tree (Descent)
open Relation (ReflTransGen)

/-- Changes of the directory, with any path, and of the mode. -/
inductive Change : St → St → Prop
  | dir {s s' : St} {dirName : List UInt8} {b : Bool} : DVDChangeDir s dirName = some (b, s') → Change s s'
  | mode (s : St) (flag : Nat) : Change s { s with longFileNameFlag := flag }

/-- The names of entries, each behind a slash. -/
def Fst.text (t : Fst) (l : List Nat) : List UInt8 := l.flatMap fun i => 47 :: t.name i

variable {s s' u : St} {t : Fst} {m : GcMem} {d e i n a maxlen : Nat} {l : List Nat} {w path : List UInt8}

theorem myStrncpyMem_eq (h : Named m a w) (n : Nat) : myStrncpyMem m a n = w.take n := by
  induction n generalizing a w with
  | zero => rfl
  | succ n ih =>
    cases w with
    | nil =>
      cases h with
      | inl h => simp [myStrncpyMem, h]
      | inr h => simp [myStrncpyMem, h]
    | cons c w =>
      obtain ⟨hc, h0, hw⟩ := h
      rw [myStrncpyMem, hc, List.take_succ_cons, ← ih hw]
      exact if_neg h0

theorem text_snoc (t : Fst) (l : List Nat) (i : Nat) : t.text (l ++ [i]) = t.text l ++ 47 :: t.name i := by
  simp [Fst.text]

/-- Room for some of the names leaves out what comes last. -/
theorem entryToPathRec_eq (maxlen : Nat) (hs : Holds s t) (hd : d < t.count) (hdir : t.isDir d = true) (hn : d < n) :
    ∃ l, Descent t.tree 0 l d ∧ entryToPathRec s maxlen n d = some ((t.text l).take maxlen) := by
  induction n generalizing d with
  | zero => cases hn
  | succ n ih =>
    by_cases h0 : d = 0
    · subst h0
      exact ⟨[], .here 0, by simp [entryToPathRec, Fst.text]⟩
    · obtain ⟨hlt, hpdir, hm⟩ := t.parent_dir hd hdir h0
      obtain ⟨l, hl, hr⟩ := ih (d := t.parent d) (by omega) hpdir (by omega)
      refine ⟨l ++ [d], hl.snoc hm hdir, ?_⟩
      rw [entryToPathRec, if_neg h0, hs.parents d hd hdir, hr, Option.map_some, text_snoc]
      by_cases hfull : ((t.text l).take maxlen).length = maxlen
      · rw [if_pos hfull]
        rw [List.length_take] at hfull
        rw [List.take_append_of_le_length (by omega)]
      · have hroom : (t.text l).length < maxlen := by
          rw [List.length_take] at hfull
          omega
        rw [if_neg hfull, List.take_of_length_le (Nat.le_of_lt hroom)]
        dsimp only
        obtain ⟨k, hk⟩ : ∃ k, maxlen = (t.text l).length + 1 + k :=
          ⟨maxlen - ((t.text l).length + 1), by omega⟩
        have hlen : (t.text l ++ [47]).length = (t.text l).length + 1 := by simp
        have happ : t.text l ++ 47 :: t.name d = (t.text l ++ [47]) ++ t.name d := by simp
        rw [myStrncpyMem_eq (hs.names d (by omega) hd), hk, happ, ← hlen, Nat.add_sub_cancel_left,
          List.take_length_add_append]

theorem part_name (hd : d < t.count) (hdir : t.isDir d = true) (hi : i ∈ t.children d) :
    part (t.name i) = .name (t.name i) := by
  obtain ⟨h0, _, h1, h2⟩ := t.proper d i hd hdir hi
  rw [part, if_neg h0, if_neg h1, if_neg h2]

/-- The names on the way down lead down. -/
theorem resolve_descent (h : Descent t.tree d l e) (hd : d < t.count) (hdir : t.isDir d = true) :
    t.resolve false d (l.flatMap fun i => t.name i ++ [47]) = some e := by
  induction h with
  | here d => rfl
  | @down d i e l hi hidir _ ih =>
    have hic := (t.child hd hdir hi).2
    have hfind : t.tree.find d (t.name i) = some i :=
      Tree.find_eq_some (t.tree_distinct hd hdir) hi (by simp [Fst.tree, sameName])
    have hstep : t.tree.step (legal false) d (part (t.name i)) = some i := by
      rw [part_name hd hdir hi, Tree.step]
      simpa [legal] using hfind
    rw [List.flatMap_cons, List.append_assoc, List.singleton_append,
      resolve_cons (t.proper d i hd hdir hi).2.1, Tree.enter_eq hstep hidir, Option.bind_some]
    exact ih hic hidir

/-- Slashes in front of the names and one at the end are one in front and one behind each. -/
theorem text_slash (t : Fst) (l : List Nat) :
    t.text l ++ [47] = 47 :: l.flatMap fun i => t.name i ++ [47] := by
  induction l with
  | nil => rfl
  | cons i l ih =>
    have h : t.text (i :: l) = 47 :: t.name i ++ t.text l := by simp [Fst.text]
    rw [h, List.append_assoc, ih]
    simp

/-- The path of a directory leads to it from anywhere. -/
theorem resolve_text (h : Descent t.tree 0 l e) : t.resolve false d (t.text l ++ [47]) = some e := by
  rw [text_slash]
  have hc : t.resolve false d ([] ++ 47 :: l.flatMap fun i => t.name i ++ [47]) = _ := resolve_cons List.not_mem_nil
  rw [List.nil_append, Tree.enter_eq (e := 0) rfl t.root_dir, Option.bind_some] at hc
  rw [hc]
  exact resolve_descent h t.count_pos t.root_dir

theorem ready_ready (h : Mounted s t) : ready (ready s) = ready s := by
  have hmax : (ready s).fstMaxEntryNum ≠ 0 := by
    rw [h.holds.max]
    exact Nat.ne_of_gt t.count_pos
  rw [ready, if_neg hmax]

namespace Mounted

theorem at_ready (h : Mounted s t) : Mounted (ready s) t := by
  have hr := ready_ready h
  exact ⟨hr.symm ▸ h.holds, hr.symm ▸ h.lt, hr.symm ▸ h.dir⟩

theorem mode (h : Mounted s t) (flag : Nat) : Mounted { s with longFileNameFlag := flag } t := by
  have hr : ready { s with longFileNameFlag := flag } =
      { ready s with longFileNameFlag := flag } := by
    unfold ready dvdFSInit
    split
    · dsimp only
      split <;> rfl
    · rfl
  refine ⟨?_, ?_, ?_⟩
  · rw [hr]
    exact ⟨h.holds.max, h.holds.fits, h.holds.dirs, h.holds.nexts, h.holds.parents, h.holds.names⟩
  · rw [hr]
    exact h.lt
  · rw [hr]
    exact h.dir

theorem enter (h : Mounted s t) (he : e < t.count) (hdir : t.isDir e = true) :
    Mounted { ready s with currentDirectory := e } t := by
  have hmax : (ready s).fstMaxEntryNum ≠ 0 := by
    rw [h.holds.max]
    exact Nat.ne_of_gt t.count_pos
  have hset : ready { ready s with currentDirectory := e } = { ready s with currentDirectory := e } := if_neg hmax
  refine ⟨?_, ?_, ?_⟩
  · rw [hset]
    exact ⟨h.holds.max, h.holds.fits, h.holds.dirs, h.holds.nexts, h.holds.parents, h.holds.names⟩
  · rw [hset]
    exact he
  · rw [hset]
    exact hdir

/-- The current directory changes to directories of the table only. -/
theorem changeDir {b : Bool} (h : Mounted s t) (hc : DVDChangeDir s w = some (b, s')) : Mounted s' t := by
  rw [DVDChangeDir, convert_eq h.at_ready, ready_ready h, Option.map_some] at hc
  cases hr : t.resolve ((ready s).longFileNameFlag = 0) (ready s).currentDirectory w with
  | none =>
    rw [hr] at hc
    cases hc
    exact h.at_ready
  | some e =>
    rw [hr] at hc
    have he := resolve_lt h.lt h.dir hr
    have hpos : ¬ (e : Int) < 0 := by omega
    have hc' : (if (e : Int) < 0 then (false, ready s)
        else if ¬ fstEntryIsDir (ready s) e then (false, ready s)
        else (true, { ready s with currentDirectory := e })) = (b, s') := Option.some.inj hc
    rw [if_neg hpos, h.holds.dirs e he] at hc'
    by_cases hdir : t.isDir e = true
    · rw [if_neg (not_not.mpr hdir)] at hc'
      cases hc'
      exact h.enter he hdir
    · rw [if_pos hdir] at hc'
      cases hc'
      exact h.at_ready

theorem change (h : Mounted s t) (hc : Change s s') : Mounted s' t := by
  cases hc with
  | dir hc => exact h.changeDir hc
  | mode flag => exact h.mode flag

theorem changes (h : Mounted s t) (hr : ReflTransGen Change s s') : Mounted s' t := by
  induction hr with
  | refl => exact h
  | tail _ hc ih => exact ih.change hc

end Mounted

/-- What is written when there was room is the path of the directory. -/
theorem getCurrentDir_spec (h : Mounted s t) (maxlen : Nat) :
    ∃ l, Descent t.tree 0 l (ready s).currentDirectory ∧
      ∃ b text, DVDGetCurrentDir s maxlen = some ((b, text), ready s) ∧
        (b = true ↔ (t.text l).length + 1 < maxlen) ∧ (b = true → text = some (t.text l ++ [47])) := by
  have hs := h.holds
  have hlt := h.lt
  have hfits := hs.fits
  obtain ⟨l, hl, hr⟩ := entryToPathRec_eq maxlen (n := fstFuel) hs h.lt h.dir
    (by unfold fstFuel; omega)
  have hdir := (hs.dirs _ h.lt).trans h.dir
  refine ⟨l, hl, ?_⟩
  rw [DVDGetCurrentDir, s32_eq hs h.lt, DVDConvertEntrynumToPath]
  by_cases h0 : maxlen = 0
  · rw [if_pos (.inl h0)]
    exact ⟨false, none, rfl, by simp [h0], by simp⟩
  · have hmax := hs.max
    have hok : ¬ (maxlen = 0 ∨ (ready s).fstMaxEntryNum = 0 ∨ ((ready s).currentDirectory : Int) < 0 ∨
        ((ready s).fstMaxEntryNum : Int) ≤ (ready s).currentDirectory) := by
      rw [hmax]
      omega
    rw [if_neg hok, Int.toNat_natCast, hr, Option.map_some, Option.map_some, List.length_take]
    by_cases hfull : maxlen ≤ (t.text l).length
    · rw [if_pos (Nat.min_eq_left hfull)]
      exact ⟨false, _, rfl, by simp; omega, by simp⟩
    · have hroom : (t.text l).length ≤ maxlen := by omega
      rw [if_neg (by omega), if_pos hdir, List.take_of_length_le hroom]
      by_cases hone : min maxlen (t.text l).length = maxlen - 1
      · rw [if_pos hone]
        exact ⟨false, _, rfl, by simp; omega, by simp⟩
      · rw [if_neg hone]
        exact ⟨true, _, rfl, by simp; omega, fun _ => rfl⟩

/-- After any changes the current directory is one, and what is written for it leads back
to it from any directory. -/
theorem currentDir_roundTrip (h : Mounted s t) (hr : ReflTransGen Change s s') :
    Mounted s' t ∧ ∀ maxlen text s₁, DVDGetCurrentDir s' maxlen = some ((true, text), s₁) →
      ∃ path, text = some path ∧ ∀ u, Mounted u t → u.longFileNameFlag ≠ 0 →
        DVDConvertPathToEntrynum u path = some ((s₁.currentDirectory : Int), ready u) := by
  have h' := h.changes hr
  refine ⟨h', ?_⟩
  intro maxlen text s₁ hget
  obtain ⟨l, hl, b, text', heq, _, htext⟩ := getCurrentDir_spec h' maxlen
  rw [heq] at hget
  cases hget
  refine ⟨_, htext rfl, ?_⟩
  intro u hu hlong
  rw [convert_eq hu, decide_eq_false hlong, resolve_text hl]
  rfl

/-- Into the directory and back out of the string. -/
theorem trialDisc_roundTrip : DVDGetCurrentDir trialDisc 8 = some ((true, some [47, 97, 47]), trialDisc) ∧
    DVDConvertPathToEntrynum { trialDisc with longFileNameFlag := 1 } [47, 97, 47] =
      some (1, { trialDisc with longFileNameFlag := 1 }) := by
  have hget : DVDGetCurrentDir trialDisc 8 = some ((true, some [47, 97, 47]), trialDisc) := by
    have hrec : entryToPathRec trialDisc 8 fstFuel 1 = some [47, 97] := by decide +kernel
    have hdir : fstEntryIsDir trialDisc 1 = true := by decide +kernel
    have hconv : DVDConvertEntrynumToPath trialDisc 1 8 = some (true, some [47, 97, 47]) := by
      rw [DVDConvertEntrynumToPath, if_neg (by decide), show (1 : Int).toNat = 1 from rfl, hrec]
      rfl
    rw [DVDGetCurrentDir]
    exact congrArg (fun r => r.map (·, trialDisc)) hconv
  obtain ⟨_, hback⟩ := currentDir_roundTrip trialDisc_mounted ReflTransGen.refl
  obtain ⟨path, hpath, hu⟩ := hback 8 _ _ hget
  cases hpath
  exact ⟨hget, hu _ (trialDisc_mounted.mode 1) (by decide)⟩

end SdkPort.DVD
