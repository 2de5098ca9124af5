import SdkPort.DVD.CurrentDir
import SdkPort.Lib.ByteMem

/-!
# The buffer of the current directory

The same functions with the buffer they write to, each write checked against its length.
They write what the string functions give, and one terminator.
-/
namespace SdkPort.DVD.Buffer

open ByteMem (put store load)
open Gc (GcMem u32)
open PathTree.Tree (Descent)

/-- The copy to a place in the buffer: the number of bytes copied, and the buffer. -/
def myStrncpyMem (m : GcMem) (room : Nat) : (i : Nat) → (dest srcAddr : Nat) → (Nat → UInt8) →
    Option (Nat × (Nat → UInt8))
  | 0, _, _, path => some (0, path)
  | i + 1, dest, srcAddr, path =>
    match dvdLoadU8 m srcAddr with
    | none => some (0, path)
    | some ch =>
      if ch = 0 then some (0, path)
      else
        (put room path dest ch).bind fun path =>
          (myStrncpyMem m room i (dest + 1) (u32 (srcAddr + 1)) path).map fun (copied, path) => (copied + 1, path)

/-- The index behind what was written, and the buffer. -/
def entryToPathRec (s : St) (maxlen : Nat) : (n entry : Nat) → (Nat → UInt8) → Option (Nat × (Nat → UInt8))
  | 0, _, _ => none
  | n + 1, entry, path =>
    if entry = 0 then some (0, path)
    else
      (entryToPathRec s maxlen n (fstParentDir s entry) path).bind fun (loc, path) =>
        if loc = maxlen then some (loc, path)
        else
          (put maxlen path loc 47).bind fun path =>
            let loc := loc + 1
            (myStrncpyMem s.mem maxlen (maxlen - loc) loc (u32 (s.fstStringStartAddr + fstStringOff s entry))
              path).map fun (copied, path) => (loc + copied, path)

/-- The result and the buffer, which is not a null pointer. -/
def DVDConvertEntrynumToPath (s : St) (entrynum : Int) (path : Nat → UInt8) (maxlen : Nat) :
    Option (Bool × (Nat → UInt8)) :=
  if maxlen = 0 ∨ s.fstMaxEntryNum = 0 ∨ entrynum < 0 ∨ (s.fstMaxEntryNum : Int) ≤ entrynum then some (false, path)
  else
    (entryToPathRec s maxlen fstFuel entrynum.toNat path).bind fun (loc, path) =>
      if loc = maxlen then (put maxlen path (maxlen - 1) 0).map (false, ·)
      else if fstEntryIsDir s entrynum.toNat then
        if loc = maxlen - 1 then (put maxlen path loc 0).map (false, ·)
        else
          (put maxlen path loc 47).bind fun path =>
            (put maxlen path (loc + 1) 0).map (true, ·)
      else (put maxlen path loc 0).map (true, ·)

def DVDGetCurrentDir (s : St) (path : Nat → UInt8) (maxlen : Nat) : Option ((Bool × (Nat → UInt8)) × St) :=
  let s := ready s
  (DVDConvertEntrynumToPath s (s32 s.currentDirectory) path maxlen).map (·, s)

variable {s : St} {t : Fst} {m : GcMem} {a d dest e entry i maxlen n room : Nat} {l : List Nat} {p w : List UInt8}
  {b path : Nat → UInt8}

section Writes

theorem length_myStrncpyMem (m : GcMem) (a i : Nat) : (DVD.myStrncpyMem m a i).length ≤ i := by
  induction i generalizing a with
  | zero => exact Nat.le_refl 0
  | succ i ih =>
    rw [DVD.myStrncpyMem]
    split
    · exact Nat.zero_le _
    · split
      · exact Nat.zero_le _
      · exact Nat.succ_le_succ (ih _)

/-- The copy puts the bytes of the name where it is told to. -/
theorem myStrncpyMem_eq (h : dest + i ≤ room) : myStrncpyMem m room i dest a path =
    some ((DVD.myStrncpyMem m a i).length, store path dest (DVD.myStrncpyMem m a i)) := by
  induction i generalizing dest a path with
  | zero => simp [myStrncpyMem, DVD.myStrncpyMem]
  | succ i ih =>
    rw [myStrncpyMem, DVD.myStrncpyMem]
    cases dvdLoadU8 m a with
    | none => simp
    | some ch =>
      by_cases h0 : ch = 0
      · simp [h0]
      · dsimp only
        have hcons : ∀ w, store (store path dest [ch]) (dest + 1) w = store path dest (ch :: w) :=
          fun w => (ByteMem.store_append path dest [ch] w).symm
        rw [if_neg h0, if_neg h0, ByteMem.put_eq ch (by omega), Option.bind_some, ih (by omega), hcons]
        rfl

theorem length_entryToPathRec (h : DVD.entryToPathRec s maxlen n entry = some w) : w.length ≤ maxlen := by
  induction n generalizing entry w with
  | zero => cases h
  | succ n ih =>
    rw [DVD.entryToPathRec] at h
    by_cases h0 : entry = 0
    · rw [if_pos h0] at h
      cases h
      exact Nat.zero_le _
    · rw [if_neg h0, Option.map_eq_some_iff] at h
      obtain ⟨v, hv, hw⟩ := h
      have hle := ih hv
      by_cases hfull : v.length = maxlen
      · rw [if_pos hfull] at hw
        rwa [← hw]
      · rw [if_neg hfull] at hw
        have hcopy := length_myStrncpyMem s.mem (u32 (s.fstStringStartAddr + fstStringOff s entry))
          (maxlen - (v ++ [47]).length)
        rw [← hw, List.length_append]
        rw [List.length_append, List.length_singleton] at *
        omega

/-- The names are written at the front of the buffer. -/
theorem entryToPathRec_eq (s : St) (maxlen n entry : Nat) (path : Nat → UInt8) :
    entryToPathRec s maxlen n entry path =
      (DVD.entryToPathRec s maxlen n entry).map fun w => (w.length, store path 0 w) := by
  induction n generalizing entry with
  | zero => rfl
  | succ n ih =>
    rw [entryToPathRec, DVD.entryToPathRec]
    by_cases h0 : entry = 0
    · simp [h0]
    · rw [if_neg h0, if_neg h0, ih]
      cases hr : DVD.entryToPathRec s maxlen n (fstParentDir s entry) with
      | none => rfl
      | some w =>
        have hw := length_entryToPathRec hr
        rw [Option.map_some, Option.bind_some, Option.map_some]
        dsimp only
        by_cases hfull : w.length = maxlen
        · rw [if_pos hfull, if_pos hfull, Option.map_some]
        · rw [if_neg hfull, if_neg hfull, ByteMem.put_eq 47 (by omega), Option.bind_some]
          have hslash : store (store path 0 w) w.length [47] = store path 0 (w ++ [47]) := by
            rw [ByteMem.store_append, Nat.zero_add]
          have hlen : w.length + 1 = (w ++ [47]).length := by simp
          rw [hslash, hlen, myStrncpyMem_eq (by rw [← hlen]; omega), Option.map_some, Option.map_some]
          generalize DVD.myStrncpyMem s.mem _ (maxlen - (w ++ [47]).length) = v
          have hsum : (w ++ [47] ++ v).length = (w ++ [47]).length + v.length := List.length_append
          rw [hsum, ByteMem.store_append path 0 (w ++ [47]) v, Nat.zero_add]

end Writes

section Strings

/-- The buffer holds a string and its terminator. -/
def Printed (b : Nat → UInt8) (p : List UInt8) : Prop := load b 0 (p.length + 1) = p ++ [0]

/-- A terminator behind a prefix of what was written. -/
theorem printed_terminate (h : p <+: w) : Printed (store (store path 0 w) p.length [0]) p := by
  obtain ⟨r, rfl⟩ := h
  have hfront : load (store (store path 0 (p ++ r)) p.length [0]) 0 p.length = p := by
    rw [ByteMem.load_store_of_disjoint (.inl (Nat.zero_add _).le), ByteMem.load_store_prefix]
  have hend : load (store (store path 0 (p ++ r)) p.length [0]) p.length 1 = [0] := ByteMem.load_store_self _ _ [0]
  rw [Printed, ByteMem.load_add, Nat.zero_add, hfront, hend]

theorem store_frame (hi : maxlen ≤ i) (hw : w.length ≤ maxlen) (hn : n < maxlen) (c : UInt8) :
    store (store path 0 w) n [c] i = path i := by
  rw [ByteMem.store_of_le (by rw [List.length_singleton]; omega), ByteMem.store_of_le (by omega)]

theorem nonzero_of_named (h : Named m a w) : 0 ∉ w := by
  induction w generalizing a with
  | nil => exact List.not_mem_nil
  | cons c w ih =>
    obtain ⟨-, hc, hw⟩ := h
    rw [List.mem_cons, not_or]
    exact ⟨Ne.symm hc, ih hw⟩

/-- No path has a zero in it. -/
theorem nonzero_text (hs : Holds s t) (hl : Descent t.tree d l e) (hd : d < t.count) (hdir : t.isDir d = true) :
    0 ∉ t.text l := by
  induction hl with
  | here d => exact List.not_mem_nil
  | @down d i e l hi hidir _ ih =>
    obtain ⟨hdi, hic⟩ := t.child hd hdir hi
    have hname := nonzero_of_named (hs.names i (by omega) hic)
    have htext := ih hic hidir
    simp only [Fst.text, List.flatMap_cons, List.mem_append, List.mem_cons, not_or] at htext ⊢
    exact ⟨⟨by decide, hname⟩, htext⟩

end Strings

/-- The path is printed if it fits with its terminator, and what fits of it if not; nothing
is written behind the buffer. -/
theorem getCurrentDir_fits (h : Mounted s t) (hm : 0 < maxlen) (path : Nat → UInt8) :
    ∃ l, Descent t.tree 0 l (ready s).currentDirectory ∧ 0 ∉ t.text l ++ [47] ∧
      ∃ b path', DVDGetCurrentDir s path maxlen = some ((b, path'), ready s) ∧
        (b = true ↔ (t.text l ++ [47]).length + 1 ≤ maxlen) ∧
        (b = true → Printed path' (t.text l ++ [47])) ∧
        (b = false → ∃ p, p <+: t.text l ++ [47] ∧ Printed path' p) ∧
        ∀ i, maxlen ≤ i → path' i = path i := by
  have hs := h.holds
  have hlt := h.lt
  have hfits := hs.fits
  have hmax := hs.max
  obtain ⟨l, hl, hr⟩ := DVD.entryToPathRec_eq maxlen (n := fstFuel) hs h.lt h.dir (by unfold fstFuel; omega)
  have hdir := (hs.dirs _ h.lt).trans h.dir
  have hok : ¬ (maxlen = 0 ∨ (ready s).fstMaxEntryNum = 0 ∨ ((ready s).currentDirectory : Int) < 0 ∨
      ((ready s).fstMaxEntryNum : Int) ≤ (ready s).currentDirectory) := by
    rw [hmax]
    omega
  have hnz : 0 ∉ t.text l ++ [47] := by
    have := nonzero_text hs hl t.count_pos t.root_dir
    simpa using this
  refine ⟨l, hl, hnz, ?_⟩
  rw [DVDGetCurrentDir, s32_eq hs h.lt, DVDConvertEntrynumToPath, if_neg hok, Int.toNat_natCast, entryToPathRec_eq, hr,
    Option.map_some, Option.bind_some]
  have hlen : (t.text l ++ [47]).length = (t.text l).length + 1 := by simp
  dsimp only
  rw [List.length_take, hlen, if_pos hdir]
  generalize t.text l = w
  by_cases hfull : maxlen ≤ w.length
  · -- no room for the last character: the terminator takes its place
    have hp : (w.take (maxlen - 1)).length = maxlen - 1 := by
      rw [List.length_take]
      omega
    rw [if_pos (Nat.min_eq_left hfull), ByteMem.put_eq 0 (by omega)]
    refine ⟨false, _, rfl, by simp; omega, by simp, fun _ => ⟨w.take (maxlen - 1), ?_, ?_⟩, fun i hi => ?_⟩
    · exact (List.take_prefix ..).trans (List.prefix_append ..)
    · have hpre : w.take (maxlen - 1) <+: w.take maxlen := List.take_prefix_take_left (by omega)
      have hprint : Printed (store (store path 0 (w.take maxlen)) _ [0]) (w.take (maxlen - 1)) :=
        printed_terminate hpre
      rwa [hp] at hprint
    · exact store_frame hi (List.length_take_le ..) (by omega) 0
  · have hroom : w.length < maxlen := by omega
    rw [if_neg (by omega), List.take_of_length_le (by omega), Nat.min_eq_right (by omega)]
    by_cases hone : w.length = maxlen - 1
    · rw [if_pos hone, ByteMem.put_eq 0 hroom]
      refine ⟨false, _, rfl, by simp; omega, by simp, fun _ => ⟨w, List.prefix_append .., ?_⟩, fun i hi => ?_⟩
      · exact printed_terminate (List.prefix_refl w)
      · exact store_frame hi (by omega) hroom 0
    · have hslash : store (store path 0 w) w.length [47] = store path 0 (w ++ [47]) := by
        rw [ByteMem.store_append, Nat.zero_add]
      have hlen' : w.length + 1 = (w ++ [47]).length := by simp
      rw [if_neg hone, ByteMem.put_eq 47 hroom, Option.bind_some, hslash, ByteMem.put_eq 0 (by omega), hlen']
      refine ⟨true, _, rfl, by simp; omega, fun _ => ?_, by simp, fun i hi => ?_⟩
      · exact printed_terminate (List.prefix_refl _)
      · exact store_frame hi (by omega) (by omega) 0

theorem trialDisc_fits : ∃ l, Descent trialFst.tree 0 l (ready trialDisc).currentDirectory ∧
    0 ∉ trialFst.text l ++ [47] ∧
    ∃ b path', DVDGetCurrentDir trialDisc (fun _ => 255) 4 = some ((b, path'), ready trialDisc) ∧
      (b = true ↔ (trialFst.text l ++ [47]).length + 1 ≤ 4) ∧
      (b = true → Printed path' (trialFst.text l ++ [47])) ∧
      (b = false → ∃ p, p <+: trialFst.text l ++ [47] ∧ Printed path' p) ∧
      ∀ i, 4 ≤ i → path' i = 255 :=
  getCurrentDir_fits trialDisc_mounted (by decide) fun _ => 255

end SdkPort.DVD.Buffer
