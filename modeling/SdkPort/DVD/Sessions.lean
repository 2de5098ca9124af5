import SdkPort.DVD.Files

/-!
# Programs that use a disc

For its callers the module is a tree of files with contents, a directory where paths begin, and
blocks that each hold an entry. Where the table lies below the page of SDK state, every sequence of
calls is answered as this disc answers it.
-/
namespace SdkPort.DVD

open ByteMem (load store load_store_self load_store_of_disjoint)
open Gc (GcMem u32)
open PathTree (Tree)
open Refine (runAll specAll Legal Simulates)
open State (SdkState GC_SDK_STATE_BASE)
open State.SdkState
open Function (update update_self update_of_ne)

/-- What the callers of a disc see. -/
structure Disc where
  cur : Nat
  short : Bool
  bytes : Nat → Option (List UInt8)
  held : Nat → Int
  state : Nat → Int
  status : Nat
  host : Nat → UInt8

/-- Some of the bytes from a position on. -/
def chunk (data : List UInt8) (pos n : Nat) : List UInt8 := (data.drop pos).take n

theorem length_chunk (data : List UInt8) (pos n : Nat) : (chunk data pos n).length = min n (data.length - pos) := by
  rw [chunk, List.length_take, List.length_drop]

namespace Disc

/-- Files can be opened, directories cannot. -/
def opens (t : Fst) (a : Disc) (entry : Option Nat) (file : Nat) : Int × Disc :=
  match entry.filter fun e => !t.isDir e && file ≠ 0 with
  | none => (0, a)
  | some e => (1, { a with held := update a.held file e, state := update a.state file 0 })

/-- The bytes of the file a block holds. -/
def content (a : Disc) (file : Nat) : Option (List UInt8) :=
  if a.held file < 0 then none else a.bytes (a.held file).toNat

/-- What a read delivers, if it does not fail. -/
def delivers (a : Disc) (file addr : Nat) (len offset : BitVec 32) : Option (List UInt8) :=
  if file = 0 ∨ addr = 0 ∨ offset.toInt < 0 ∨ len.toInt < 0 then none
  else ((a.content file).filter fun data => offset.toNat ≤ data.length).map fun data =>
    chunk data offset.toNat len.toNat

def receive (a : Disc) (addr : Nat) (bytes : Option (List UInt8)) : Disc :=
  { a with host := store a.host addr (bytes.getD []) }

theorem receive_none (a : Disc) (addr : Nat) : a.receive addr none = a := by
  rw [receive, Option.getD_none, ByteMem.store_nil]

/-- The number of bytes, or -1. -/
def result (bytes : Option (List UInt8)) : Int := bytes.elim (-1) fun l => l.length

theorem ite_result (bytes : Option (List UInt8)) (x y : Int) :
    (if result bytes < 0 then x else y) = if bytes.isSome then y else x := by
  cases bytes with
  | none => rfl
  | some l => exact if_neg (Int.not_lt.mpr (Int.natCast_nonneg l.length))

theorem ite_result_self (bytes : Option (List UInt8)) :
    (if result bytes < 0 then -1 else result bytes) = result bytes := by
  rw [ite_result]
  cases bytes <;> rfl

/-- A read that calls back; where a pointer is null nothing happens. -/
def async (a : Disc) (file addr : Nat) (len offset : BitVec 32) (cb : Bool) : Reply × Disc :=
  if file = 0 ∨ addr = 0 then ((0, none), a)
  else
    let bytes := a.delivers file addr len offset
    ((if bytes.isSome then 1 else 0, if cb then some (result bytes) else none),
      { a.receive addr bytes with state := update a.state file 0 })

def call (t : Fst) (a : Disc) : DvdCall → Reply × Disc
  | .DVDInit => ((0, none), { a with status := 0 })
  | .DVDGetDriveStatus => ((a.status, none), a)
  | .DVDFastOpen entrynum file =>
    let r := a.opens t (if 0 ≤ entrynum ∧ entrynum < t.count then some entrynum.toNat else none) file
    ((r.1, none), r.2)
  | .DVDOpen path file =>
    let r := a.opens t (t.resolve a.short a.cur path) file
    ((r.1, none), r.2)
  | .DVDRead file addr len offset =>
    let bytes := a.delivers file addr len offset
    ((result bytes, none), a.receive addr bytes)
  | .DVDReadAsync file addr len offset cb => a.async file addr len offset cb
  | .DVDReadPrio file addr len offset =>
    let bytes := a.delivers file addr len offset
    ((if bytes.isSome then 0 else -1, none), a.receive addr bytes)
  | .DVDReadAsyncPrio file addr len offset cb => a.async file addr len offset cb
  | .DVDClose => ((1, none), a)
  | .DVDGetCommandBlockStatus block => ((if block = 0 then 0 else a.state block, none), a)
  | .DVDCancel block =>
    if block = 0 then ((-1, none), a)
    else if a.state block ∈ [0, -1, 10] then ((0, none), a)
    else ((0, none), { a with state := update a.state block 10 })
  | .DVDChangeDir dirName =>
    match (t.resolve a.short a.cur dirName).filter t.isDir with
    | none => ((0, none), a)
    | some e => ((1, none), { a with cur := e })
  | .longFileNames flag => ((0, none), { a with short := flag = 0 })
  | .resetFiles => ((0, none), { a with bytes := fun _ => none })
  | .setFile entrynum data malloc =>
    if 0 ≤ entrynum ∧ entrynum < TEST_FILES then
      ((0, none), { a with bytes := update a.bytes entrynum.toNat (kept data malloc) })
    else ((0, none), a)
  | .setPaths _ => ((0, none), a)

end Disc

/-- The table lies below the page of SDK state. -/
structure Below (s : St) (t : Fst) : Prop where
  entries : s.fstStartAddr + t.count * 12 ≤ GC_SDK_STATE_BASE
  names : ∀ i, 0 < i → i < t.count →
    u32 (s.fstStringStartAddr + fstStringOff s i) + (t.name i).length < GC_SDK_STATE_BASE

/-- A module that has found a table, as its callers see it. -/
structure Presents (t : Fst) (d : Dvd) (a : Disc) : Prop where
  found : d.fst.fstMaxEntryNum ≠ 0
  mounted : Mounted d.fst t
  below : Below d.fst t
  cur : d.fst.currentDirectory = a.cur
  short : decide (d.fst.longFileNameFlag = 0) = a.short
  bytes : ∀ e, a.bytes e = if e < TEST_FILES then d.files e else none
  held : ∀ file, (d.infos file).entrynum = a.held file
  state : ∀ file, (d.infos file).state = a.state file
  status : d.sdk.value GC_SDK_OFF_DVD_DRIVE_STATUS = a.status
  host : d.host = a.host

variable {t : Fst} {s : St} {d : Dvd} {a : Disc} {m : GcMem} {w path : List UInt8} {file addr i off x : Nat}
  {len offset : BitVec 32}

theorem ready_found (h : s.fstMaxEntryNum ≠ 0) : ready s = s := if_neg h

/-! ### The table stays -/

section
variable (hm : SameBelow s.mem m)
include hm

theorem dvdLoadU8_sameBelow (hx : x < GC_SDK_STATE_BASE) : dvdLoadU8 m x = dvdLoadU8 s.mem x := by
  have hp : m.ptr x 1 = s.mem.ptr x 1 := by
    simp only [GcMem.ptr, hm.base, hm.size]
  rw [dvdLoadU8, dvdLoadU8, hp]
  unfold GcMem.ptr
  split
  · rfl
  split
  · rfl
  · have hx := hm.bytes x hx (by omega)
    rw [GcMem.byte, GcMem.byte, hm.base] at hx
    exact congrArg some hx

theorem Named.sameBelow (hn : Named s.mem x w) (hx : x + w.length < GC_SDK_STATE_BASE) : Named m x w := by
  have hbase : GC_SDK_STATE_BASE = 0x817FE000 := rfl
  induction w generalizing x with
  | nil =>
    rw [Named, dvdLoadU8_sameBelow hm (x := x) hx]
    exact hn
  | cons c w ih =>
    rw [List.length_cons] at hx
    obtain ⟨hc, h0, hn⟩ := hn
    have hu : u32 (x + 1) = x + 1 := Nat.mod_eq_of_lt (by omega)
    rw [hu] at hn
    refine ⟨(dvdLoadU8_sameBelow hm (by omega)).trans hc, h0, ?_⟩
    rw [hu]
    exact ih hn (by omega)

variable (hb : Below s t)
include hb

theorem fstField_sameBelow (hi : i < t.count) (ho : off + 4 ≤ 12) :
    fstField { s with mem := m } i off = fstField s i off := by
  have he := hb.entries
  have hbase : GC_SDK_STATE_BASE = 0x817FE000 := rfl
  have hu : u32 (s.fstStartAddr + i * 12 + off) = s.fstStartAddr + i * 12 + off := Nat.mod_eq_of_lt (by omega)
  rw [fstField, fstField, hu]
  exact hm.load (by omega)

theorem Holds.sameBelow (hs : Holds s t) : Holds { s with mem := m } t where
  max := hs.max
  fits := hs.fits
  dirs i hi := by
    rw [fstEntryIsDir, fstField_sameBelow hm hb hi (by decide)]
    exact hs.dirs i hi
  nexts i hi hdir := (fstField_sameBelow hm hb hi (by decide)).trans (hs.nexts i hi hdir)
  parents i hi hdir := (fstField_sameBelow hm hb hi (by decide)).trans (hs.parents i hi hdir)
  names i h0 hi := by
    rw [fstStringOff, fstField_sameBelow hm hb hi (by decide)]
    exact Named.sameBelow hm (hs.names i h0 hi) (hb.names i h0 hi)

theorem Below.sameBelow : Below { s with mem := m } t where
  entries := hb.entries
  names i h0 hi := by
    rw [fstStringOff, fstField_sameBelow hm hb hi (by decide)]
    exact hb.names i h0 hi

end

/-- Where there is a table, its files are opened, with what it says about them. -/
theorem DVDFastOpen_found {entrynum : Int} (hf : d.fst.fstMaxEntryNum ≠ 0) : DVDFastOpen d entrynum file =
    if file ≠ 0 ∧ 0 ≤ entrynum ∧ entrynum < d.fst.fstMaxEntryNum ∧
        fstEntryIsDir d.fst entrynum.toNat = false then
      (1, d.setInfo file ⟨0, fstFilePos d.fst entrynum.toNat, fstFileLen d.fst entrynum.toNat, entrynum⟩)
    else (0, d) := by
  unfold DVDFastOpen
  dsimp only
  by_cases hin : file ≠ 0 ∧ 0 ≤ entrynum ∧ entrynum < d.fst.fstMaxEntryNum
  · rw [if_neg (by omega), if_neg (by omega), if_pos hf, if_neg (by omega)]
    cases fstEntryIsDir d.fst entrynum.toNat with
    | true => rw [if_pos rfl, if_neg fun hc => Bool.noConfusion hc.2.2.2]
    | false => rw [if_neg Bool.false_ne_true, if_pos ⟨hin.1, hin.2.1, hin.2.2, rfl⟩]
  · rw [if_neg (c := file ≠ 0 ∧ _) fun hc => hin ⟨hc.1, hc.2.1, hc.2.2.1⟩]
    split
    · rfl
    split
    · rfl
    · exact if_pos (by omega)

theorem nonneg_of_toInt {v : BitVec 32} (h : ¬ v.toInt < 0) : v.toNat < 2 ^ 31 := by
  rw [BitVec.toInt_eq_toNat_cond] at h
  split at h
  · omega
  · have hv := v.isLt
    omega

/-- A read past the end is cut there. -/
theorem cut_eq {data : List UInt8} (ho : offset.toNat < 2 ^ 31) (hl : len.toNat < 2 ^ 31)
    (hd : offset.toNat ≤ data.length) :
    (if data.length < (offset + len).toNat then data.length - offset.toNat else len.toNat) =
      (chunk data offset.toNat len.toNat).length := by
  have hsum : (offset + len).toNat = offset.toNat + len.toNat := by
    rw [BitVec.toNat_add]
    exact Nat.mod_eq_of_lt (by omega)
  rw [hsum, length_chunk]
  split <;> omega

namespace Presents

variable (h : Presents t d a)
include h

theorem holds : Holds d.fst t := ready_found h.found ▸ h.mounted.holds

theorem lt : a.cur < t.count := by
  have hlt := h.mounted.lt
  rwa [ready_found h.found, h.cur] at hlt

theorem dir : t.isDir a.cur = true := by
  have hdir := h.mounted.dir
  rwa [ready_found h.found, h.cur] at hdir

/-- Another state of the page below which the table lies. -/
theorem setSdk {k : SdkState} {n : Nat} (hm : SameBelow d.fst.mem k.mem)
    (hn : k.value GC_SDK_OFF_DVD_DRIVE_STATUS = n) : Presents t (d.setSdk k) { a with status := n } where
  found := h.found
  mounted := by
    have hr : ready (d.setSdk k).fst = (d.setSdk k).fst := ready_found h.found
    have hlt := h.mounted.lt
    have hdir := h.mounted.dir
    rw [ready_found h.found] at hlt hdir
    exact ⟨hr.symm ▸ h.holds.sameBelow hm h.below, hr.symm ▸ hlt, hr.symm ▸ hdir⟩
  below := h.below.sameBelow hm
  cur := h.cur
  short := h.short
  bytes := h.bytes
  held := h.held
  state := h.state
  status := hn
  host := h.host

theorem setInfo (file : Nat) (info : FileInfo) : Presents t (d.setInfo file info)
    { a with held := update a.held file info.entrynum, state := update a.state file info.state } where
  found := h.found
  mounted := h.mounted
  below := h.below
  cur := h.cur
  short := h.short
  bytes := h.bytes
  held := by
    rw [← funext h.held]
    exact Function.apply_update (fun _ => FileInfo.entrynum) d.infos file info
  state := by
    rw [← funext h.state]
    exact Function.apply_update (fun _ => FileInfo.state) d.infos file info
  status := h.status
  host := h.host

theorem setState (file : Nat) (v : Int) : Presents t (d.setInfo file { d.infos file with state := v })
    { a with state := update a.state file v } := by
  have hs := h.setInfo file { d.infos file with state := v }
  rwa [h.held, Function.update_eq_self] at hs

/-- A word of the page that is not the status of the drive. -/
theorem storeMirror (off v : Nat) (ho : off % 4 = 0) (hne : off ≠ GC_SDK_OFF_DVD_DRIVE_STATUS) :
    Presents t (d.setSdk (d.sdk.storeMirror off v)) a :=
  h.setSdk (SameBelow.storeMirror (s := d.sdk) (SameBelow.refl d.fst.mem) off v)
    ((value_storeMirror_other (words_apart ho rfl hne)).trans h.status)

/-! ### Calls -/

theorem fastOpen (entrynum : Int) (file : Nat) : ∃ d', Presents t d' (a.opens t
      (if 0 ≤ entrynum ∧ entrynum < t.count then some entrynum.toNat else none) file).2 ∧
    DVDFastOpen d entrynum file = ((a.opens t
      (if 0 ≤ entrynum ∧ entrynum < t.count then some entrynum.toNat else none) file).1, d') := by
  rw [DVDFastOpen_found h.found, h.holds.max]
  by_cases hin : 0 ≤ entrynum ∧ entrynum < t.count
  · rw [if_pos hin]
    obtain ⟨e, rfl⟩ := Int.eq_ofNat_of_zero_le hin.1
    rw [Int.toNat_natCast, h.holds.dirs e (Int.ofNat_lt.mp hin.2), Disc.opens, Option.filter_some]
    by_cases hopen : (!t.isDir e && decide (file ≠ 0)) = true
    · rw [if_pos hopen]
      rw [Bool.and_eq_true, Bool.not_eq_true', decide_eq_true_eq] at hopen
      exact ⟨_, h.setInfo file ⟨0, fstFilePos d.fst e, fstFileLen d.fst e, e⟩,
        if_pos ⟨hopen.2, hin.1, hin.2, hopen.1⟩⟩
    · rw [if_neg hopen]
      rw [Bool.and_eq_true, Bool.not_eq_true', decide_eq_true_eq] at hopen
      exact ⟨d, h, if_neg fun hc => hopen ⟨hc.2.2.2, hc.1⟩⟩
  · rw [if_neg hin]
    exact ⟨d, h, if_neg fun hc => hin ⟨hc.2.1, hc.2.2.1⟩⟩

theorem resolve (path : List UInt8) : DVDConvertPathToEntrynum d.fst path =
    some (((t.resolve a.short a.cur path).elim (-1) fun e => (e : Int)), d.fst) := by
  have hc := convert_eq h.mounted path
  rwa [ready_found h.found, h.short, h.cur] at hc

theorem resolve_lt (hr : t.resolve a.short a.cur path = some i) : i < t.count := DVD.resolve_lt h.lt h.dir hr

theorem openPath (path : List UInt8) (file : Nat) :
    ∃ d', Presents t d' (a.opens t (t.resolve a.short a.cur path) file).2 ∧
      DVDOpen d path file = some ((a.opens t (t.resolve a.short a.cur path) file).1, d') := by
  have hcount : Presents t (d.setSdk (d.sdk.count GC_SDK_OFF_DVD_OPEN_CALLS)) a := h.storeMirror _ _ rfl (by decide)
  rw [DVDOpen, h.resolve, Option.map_some]
  cases hr : t.resolve a.short a.cur path with
  | none =>
    obtain ⟨d', hs, he⟩ := hcount.fastOpen (-1) file
    exact ⟨d', hs, congrArg some he⟩
  | some e =>
    obtain ⟨d', hs, he⟩ := hcount.fastOpen e file
    rw [if_pos ⟨Int.natCast_nonneg e, Int.ofNat_lt.mpr (h.resolve_lt hr)⟩] at hs he
    exact ⟨d', hs, congrArg some he⟩

theorem countRead (len offset : BitVec 32) : Presents t (countRead d len offset) a :=
  ((h.storeMirror GC_SDK_OFF_DVD_READ_CALLS _ rfl (by decide)).storeMirror
    GC_SDK_OFF_DVD_LAST_READ_LEN _ rfl (by decide)).storeMirror GC_SDK_OFF_DVD_LAST_READ_OFF _ rfl (by decide)

theorem receive (addr : Nat) (bytes : List UInt8) : Presents t { d with host := store d.host addr bytes }
    { a with host := store a.host addr bytes } where
  found := h.found
  mounted := h.mounted
  below := h.below
  cur := h.cur
  short := h.short
  bytes := h.bytes
  held := h.held
  state := h.state
  status := h.status
  host := by rw [h.host]

theorem read (file addr : Nat) (len offset : BitVec 32) :
    ∃ d', Presents t d' (a.receive addr (a.delivers file addr len offset)) ∧
      DVDRead d file addr len offset = (Disc.result (a.delivers file addr len offset), d') := by
  unfold DVDRead Disc.delivers
  by_cases h0 : file = 0 ∨ addr = 0
  · rw [if_pos h0, if_pos (by tauto)]
    exact ⟨d, (a.receive_none addr).symm ▸ h, rfl⟩
  · have hc := h.countRead len offset
    have hfail : ∃ d', Presents t d' (a.receive addr none) ∧ ((-1 : Int), DVD.countRead d len offset) = (-1, d') :=
      ⟨_, (a.receive_none addr).symm ▸ hc, rfl⟩
    rw [if_neg h0]
    dsimp only
    rw [hc.held file]
    by_cases hneg : offset.toInt < 0 ∨ len.toInt < 0
    · rw [if_pos (by tauto)]
      split
      · exact hfail
      split
      · exact hfail
      · exact hfail
    · rw [if_neg (by tauto)]
      by_cases he : a.held file < 0 ∨ (TEST_FILES : Int) ≤ a.held file
      · have hn : a.content file = none := by
          rw [Disc.content]
          split
          · rfl
          · rw [h.bytes, if_neg (by omega)]
        rw [if_pos he, hn]
        exact hfail
      · have hn : a.content file = d.files (a.held file).toNat := by
          rw [Disc.content, if_neg (by omega), h.bytes, if_pos (by omega)]
        rw [if_neg he, hn]
        cases hf : (DVD.countRead d len offset).files (a.held file).toNat with
        | none =>
          have hf : d.files (a.held file).toNat = none := hf
          rw [hf]
          exact hfail
        | some data =>
          have hf : d.files (a.held file).toNat = some data := hf
          rw [hf, Option.filter_some]
          dsimp only
          rw [if_neg hneg]
          by_cases hd : data.length < offset.toNat
          · rw [if_pos hd, if_neg (by simpa using hd)]
            exact hfail
          · have hcut := cut_eq (nonneg_of_toInt fun hc => hneg (.inl hc)) (nonneg_of_toInt fun hc => hneg (.inr hc))
              (Nat.le_of_not_lt hd)
            have htake : (data.drop offset.toNat).take (chunk data offset.toNat len.toNat).length =
                chunk data offset.toNat len.toNat := by
              rw [chunk, List.length_take, List.take_eq_take_iff]
              omega
            rw [if_neg hd, if_pos (by simpa using hd), hcut, htake]
            exact ⟨_, hc.receive addr _, rfl⟩

/-- While a block is busy its file is read; then it is idle. -/
theorem readAsync (file addr : Nat) (len offset : BitVec 32) (cb : Bool) :
    ∃ d', Presents t d' (a.async file addr len offset cb).2 ∧
      DVDReadAsync d file addr len offset cb = ((a.async file addr len offset cb).1, d') := by
  unfold DVDReadAsync Disc.async
  by_cases h0 : file = 0 ∨ addr = 0
  · rw [if_pos h0, if_pos h0]
    exact ⟨d, h, rfl⟩
  · have hbusy : Presents t { d.setInfo file { d.infos file with state := 1 } with asyncBusySeen := 1 }
        { a with state := update a.state file 1 } :=
      let hs := h.setState file 1
      ⟨hs.found, hs.mounted, hs.below, hs.cur, hs.short, hs.bytes, hs.held, hs.state, hs.status, hs.host⟩
    obtain ⟨d', hs, he⟩ := hbusy.read file addr len offset
    have hsame : Disc.delivers { a with state := update a.state file 1 } file addr len offset =
        a.delivers file addr len offset := rfl
    rw [hsame] at hs he
    have hidle := hs.setState file 0
    simp only [Disc.receive, Function.update_idem] at hidle
    rw [if_neg h0, if_neg h0]
    dsimp only
    rw [he]
    dsimp only
    rw [Disc.ite_result, Disc.ite_result_self]
    exact ⟨_, hidle, rfl⟩

theorem changeDir (dirName : List UInt8) : ∃ d', Presents t d' (a.call t (.DVDChangeDir dirName)).2 ∧
    execDvd d (.DVDChangeDir dirName) = some ((a.call t (.DVDChangeDir dirName)).1, d') := by
  have hready := ready_found h.found
  rw [execDvd, DVDChangeDir, hready, h.resolve, Option.map_some, Option.bind_some, Disc.call]
  cases hr : t.resolve a.short a.cur dirName with
  | none => exact ⟨d, h, rfl⟩
  | some e =>
    have he := h.resolve_lt hr
    have hdirs := h.holds.dirs e he
    dsimp only [Option.elim_some]
    rw [if_neg (Int.not_lt.mpr (Int.natCast_nonneg e)), Int.toNat_natCast, hdirs, Option.filter_some]
    cases hdir : t.isDir e with
    | false => exact ⟨d, h, rfl⟩
    | true =>
      have hm := h.mounted.enter he hdir
      rw [hready] at hm
      exact ⟨{ d with fst.currentDirectory := e }, ⟨h.found, hm, ⟨h.below.entries, h.below.names⟩, rfl, h.short,
        h.bytes, h.held, h.state, h.status, h.host⟩, rfl⟩

/-- Other files for the entries. -/
theorem setFiles {files bytes : Nat → Option (List UInt8)} (hf : ∀ e, bytes e = if e < TEST_FILES then files e else none) :
    Presents t { d with files := files } { a with bytes := bytes } :=
  ⟨h.found, h.mounted, h.below, h.cur, h.short, hf, h.held, h.state, h.status, h.host⟩

theorem setFile (entrynum : Int) (data : Option (List UInt8)) (malloc : Bool) :
    ∃ d', execDvd d (.setFile entrynum data malloc) = some ((a.call t (.setFile entrynum data malloc)).1, d') ∧
      Presents t d' (a.call t (.setFile entrynum data malloc)).2 := by
  rw [execDvd, DVD.setFile, Disc.call]
  by_cases hin : 0 ≤ entrynum ∧ entrynum < TEST_FILES
  · obtain ⟨e, rfl⟩ := Int.eq_ofNat_of_zero_le hin.1
    rw [if_neg (by omega), if_pos hin, Int.toNat_natCast]
    refine ⟨_, rfl, h.setFiles fun e' => ?_⟩
    by_cases he : e' = e
    · subst he
      rw [update_self, update_self, if_pos (Int.ofNat_lt.mp hin.2)]
    · rw [update_of_ne he, update_of_ne he, h.bytes]
  · rw [if_pos (by omega), if_neg hin]
    exact ⟨d, rfl, h⟩

/-- Where a table was found nobody asks for the paths of the host. -/
theorem setPaths (paths : List (Option (List UInt8))) : Presents t (DVD.setPaths d paths) a := by
  have hr : ready (DVD.setPaths d paths).fst = (DVD.setPaths d paths).fst := ready_found h.found
  have hlt := h.lt
  have hdir := h.dir
  rw [← h.cur] at hlt hdir
  have hh := h.holds
  refine ⟨h.found, ⟨hr.symm ▸ ?_, hr.symm ▸ hlt, hr.symm ▸ hdir⟩, ⟨h.below.entries, h.below.names⟩, h.cur, h.short,
    h.bytes, h.held, h.state, h.status, h.host⟩
  exact ⟨hh.max, hh.fits, hh.dirs, hh.nexts, hh.parents, hh.names⟩

end Presents

/-- Each call is answered as the disc answers it. -/
theorem simulates (t : Fst) : Simulates execDvd (Disc.call t) (fun _ _ => True) (Presents t) := by
  intro d a c h _
  cases c with
  | DVDInit =>
    have hs := h.storeMirror GC_SDK_OFF_DVD_INITIALIZED 1 rfl (by decide)
    exact ⟨_, rfl, hs.setSdk (SameBelow.storeMirror (s := (d.setSdk _).sdk) (SameBelow.refl _) _ _)
      (value_storeMirror_self (by decide))⟩
  | DVDGetDriveStatus =>
    have hs := h.setSdk (k := (d.sdk.refresh GC_SDK_OFF_DVD_DRIVE_STATUS).2) (SameBelow.refl d.fst.mem)
      ((value_refresh _ _ _).trans h.status)
    refine ⟨_, ?_, hs⟩
    rw [execDvd, plain, DVDGetDriveStatus]
    dsimp only
    rw [refresh, h.status]
    rfl
  | DVDFastOpen entrynum file =>
    obtain ⟨d', hs, he⟩ := h.fastOpen entrynum file
    exact ⟨d', by rw [execDvd, he]; rfl, hs⟩
  | DVDOpen path file =>
    obtain ⟨d', hs, he⟩ := h.openPath path file
    exact ⟨d', by rw [execDvd, he]; rfl, hs⟩
  | DVDRead file addr len offset =>
    obtain ⟨d', hs, he⟩ := h.read file addr len offset
    exact ⟨d', by rw [execDvd, he]; rfl, hs⟩
  | DVDReadAsync file addr len offset cb =>
    obtain ⟨d', hs, he⟩ := h.readAsync file addr len offset cb
    exact ⟨d', congrArg some he, hs⟩
  | DVDReadPrio file addr len offset =>
    obtain ⟨d', hs, he⟩ := h.read file addr len offset
    refine ⟨d', ?_, hs⟩
    rw [execDvd, DVDReadPrio, he]
    dsimp only [plain]
    rw [Disc.ite_result]
    rfl
  | DVDReadAsyncPrio file addr len offset cb =>
    obtain ⟨d', hs, he⟩ := h.readAsync file addr len offset cb
    exact ⟨d', congrArg some he, hs⟩
  | DVDClose => exact ⟨_, rfl, h.storeMirror GC_SDK_OFF_DVD_CLOSE_CALLS _ rfl (by decide)⟩
  | DVDGetCommandBlockStatus block =>
    refine ⟨d, ?_, h⟩
    rw [execDvd, DVDGetCommandBlockStatus, h.state]
    rfl
  | DVDCancel block =>
    rw [execDvd, DVDCancel, Disc.call, h.state]
    dsimp only
    by_cases h0 : block = 0
    · rw [if_pos h0, if_pos h0]
      exact ⟨d, rfl, h⟩
    rw [if_neg h0, if_neg h0]
    by_cases hq : a.state block ∈ [0, -1, 10]
    · rw [if_pos hq, if_pos (by simpa using hq)]
      exact ⟨d, rfl, h⟩
    · rw [if_neg hq, if_neg (by simpa using hq)]
      exact ⟨_, rfl, h.setState block 10⟩
  | DVDChangeDir dirName =>
    obtain ⟨d', hs, he⟩ := h.changeDir dirName
    exact ⟨d', he, hs⟩
  | longFileNames flag =>
    exact ⟨_, rfl, h.found, h.mounted.mode flag, ⟨h.below.entries, h.below.names⟩, h.cur, rfl, h.bytes, h.held,
      h.state, h.status, h.host⟩
  | resetFiles => exact ⟨_, rfl, h.setFiles fun e => by rw [ite_self]⟩
  | setFile entrynum data malloc =>
    obtain ⟨d', he, hs⟩ := h.setFile entrynum data malloc
    exact ⟨d', he, hs⟩
  | setPaths paths => exact ⟨_, rfl, h.setPaths paths⟩

/-- Every sequence of calls, from any state that has found its table. -/
theorem answers_as_disc (h : Presents t d a) (calls : List DvdCall) :
    ∃ d', runAll execDvd d calls = some ((specAll (Disc.call t) a calls).1, d') ∧
      Presents t d' (specAll (Disc.call t) a calls).2 :=
  (simulates t).runAll h (Refine.legal_true _ calls)

/-! ### A file in pieces -/

/-- The block, the buffer, the length and the offset of a read. -/
def DvdCall.reads : DvdCall → Option (Nat × Nat × BitVec 32 × BitVec 32)
  | .DVDRead file addr len offset => some (file, addr, len, offset)
  | .DVDReadAsync file addr len offset _ => some (file, addr, len, offset)
  | .DVDReadPrio file addr len offset => some (file, addr, len, offset)
  | .DVDReadAsyncPrio file addr len offset _ => some (file, addr, len, offset)
  | _ => none

/-- The block is not opened again, nothing is read into the buffer and the host leaves the files. -/
def DvdCall.spares (size file buf : Nat) (c : DvdCall) : Prop :=
  match c with
  | .DVDFastOpen _ other => other ≠ file
  | .DVDOpen _ other => other ≠ file
  | .resetFiles => False
  | .setFile _ _ _ => False
  | c => ∀ r ∈ c.reads, r.2.1 + r.2.2.1.toNat ≤ buf ∨ buf + size ≤ r.2.1

/-- Reads of any kind that go on where the last one ended, in a buffer of the size of the file, and
any other calls between them. The numbers are the bytes asked for before and in the end. -/
inductive Streams (size file buf : Nat) : Nat → List DvdCall → Nat → Prop
  | done (asked : Nat) : Streams size file buf asked [] asked
  | next {asked total : Nat} {c : DvdCall} {len offset : BitVec 32} {calls : List DvdCall} :
      c.reads = some (file, buf + min asked size, len, offset) → offset.toInt = min asked size → 0 ≤ len.toInt →
      Streams size file buf (asked + len.toNat) calls total → Streams size file buf asked (c :: calls) total
  | other {asked total : Nat} {c : DvdCall} {calls : List DvdCall} :
      c.spares size file buf → Streams size file buf asked calls total →
      Streams size file buf asked (c :: calls) total

namespace Disc

variable {c : DvdCall} {data : List UInt8} {size buf asked total : Nat} {calls : List DvdCall}

theorem receive_delivers_null (h : file = 0 ∨ addr = 0) : a.receive addr (a.delivers file addr len offset) = a := by
  rw [delivers, if_pos (by tauto), receive_none]

theorem async_host (a : Disc) (file addr : Nat) (len offset : BitVec 32) (cb : Bool) :
    (a.async file addr len offset cb).2.host = (a.receive addr (a.delivers file addr len offset)).host := by
  rw [async]
  split
  · rename_i h0
    rw [receive_delivers_null h0]
  · rfl

theorem opens_host (t : Fst) (a : Disc) (entry : Option Nat) (file : Nat) : (a.opens t entry file).2.host = a.host := by
  rw [opens]
  split <;> rfl

/-- Only reads write to the memory of the caller. -/
theorem call_host (t : Fst) (a : Disc) (c : DvdCall) : (a.call t c).2.host =
    c.reads.elim a.host fun r => (a.receive r.2.1 (a.delivers r.1 r.2.1 r.2.2.1 r.2.2.2)).host := by
  cases c with
  | DVDFastOpen entrynum file => exact opens_host t a _ file
  | DVDOpen path file => exact opens_host t a _ file
  | DVDReadAsync file addr len offset cb => exact async_host a file addr len offset cb
  | DVDReadAsyncPrio file addr len offset cb => exact async_host a file addr len offset cb
  | DVDCancel block =>
    rw [call]
    split
    · rfl
    split <;> rfl
  | DVDChangeDir dirName =>
    rw [call]
    split <;> rfl
  | setFile entrynum data malloc =>
    rw [call]
    split <;> rfl
  | _ => rfl

theorem async_content (a : Disc) (file addr : Nat) (len offset : BitVec 32) (cb : Bool) (q : Nat) :
    (a.async file addr len offset cb).2.content q = a.content q := by
  rw [async]
  split <;> rfl

theorem opens_content {other q : Nat} (t : Fst) (a : Disc) (entry : Option Nat) (h : other ≠ q) :
    (a.opens t entry other).2.content q = a.content q := by
  rw [opens]
  split
  · rfl
  · simp only [content, update_of_ne (Ne.symm h)]

/-- A block that is not opened again keeps its file. -/
theorem call_content (t : Fst) (a : Disc) (hs : c.spares size file buf ∨ c.reads.isSome) :
    (a.call t c).2.content file = a.content file := by
  cases c with
  | DVDFastOpen entrynum other => exact opens_content t a _ (hs.resolve_right (by simp [DvdCall.reads]))
  | DVDOpen path other => exact opens_content t a _ (hs.resolve_right (by simp [DvdCall.reads]))
  | DVDReadAsync other addr len offset cb => exact async_content a other addr len offset cb file
  | DVDReadAsyncPrio other addr len offset cb => exact async_content a other addr len offset cb file
  | DVDCancel block =>
    rw [call]
    split
    · rfl
    split <;> rfl
  | DVDChangeDir dirName =>
    rw [call]
    split <;> rfl
  | resetFiles => exact (hs.resolve_right Bool.false_ne_true).elim
  | setFile entrynum data malloc => exact (hs.resolve_right Bool.false_ne_true).elim
  | _ => rfl

theorem length_delivers (a : Disc) (file addr : Nat) (len offset : BitVec 32) :
    ((a.delivers file addr len offset).getD []).length ≤ len.toNat := by
  rw [delivers]
  split
  · exact Nat.zero_le _
  · cases (a.content file).filter fun data => offset.toNat ≤ data.length with
    | none => exact Nat.zero_le _
    | some data =>
      rw [Option.map_some, Option.getD_some, length_chunk]
      exact Nat.min_le_left _ _

/-- Calls that spare a buffer leave it. -/
theorem call_spares (t : Fst) (a : Disc) (hs : c.spares size file buf) (hn : x ≤ size) :
    load (a.call t c).2.host buf x = load a.host buf x := by
  rw [call_host]
  cases hr : c.reads with
  | none => rfl
  | some r =>
    have hap : r.2.1 + r.2.2.1.toNat ≤ buf ∨ buf + size ≤ r.2.1 := by
      cases c with
      | DVDFastOpen entrynum other => cases hr
      | DVDOpen path other => cases hr
      | resetFiles => cases hr
      | setFile entrynum data malloc => cases hr
      | _ => exact hs r hr
    have hlen := a.length_delivers r.1 r.2.1 r.2.2.1 r.2.2.2
    exact load_store_of_disjoint (by omega)

/-- The next piece comes behind those that are there. -/
theorem call_next (t : Fst) (a : Disc) (hfile : file ≠ 0) (hbuf : buf ≠ 0) (hd : a.content file = some data)
    (hr : c.reads = some (file, buf + min asked data.length, len, offset)) (ho : offset.toInt = min asked data.length)
    (hl : 0 ≤ len.toInt) (hb : load a.host buf (min asked data.length) = data.take asked) :
    load (a.call t c).2.host buf (min (asked + len.toNat) data.length) = data.take (asked + len.toNat) := by
  have hpos : offset.toNat = min asked data.length := by
    rw [BitVec.toInt_eq_toNat_cond] at ho
    split at ho <;> omega
  have hgot : a.delivers file (buf + min asked data.length) len offset =
      some (chunk data (min asked data.length) len.toNat) := by
    rw [delivers, if_neg (by omega), hd, Option.filter_some, if_pos (by simp [hpos]), Option.map_some, hpos]
  have hlen : (chunk data (min asked data.length) len.toNat).length =
      min (asked + len.toNat) data.length - min asked data.length := by
    rw [length_chunk]
    omega
  have hcat : data.take (asked + len.toNat) = data.take asked ++ chunk data (min asked data.length) len.toNat := by
    rw [List.take_add, chunk]
    by_cases ha : asked ≤ data.length
    · rw [Nat.min_eq_left ha]
    · rw [Nat.min_eq_right (by omega), List.drop_eq_nil_of_le (by omega), List.drop_length]
  have hsum : min (asked + len.toNat) data.length =
      min asked data.length + (chunk data (min asked data.length) len.toNat).length := by omega
  rw [call_host, hr, Option.elim_some]
  dsimp only [receive]
  rw [hgot, Option.getD_some, hsum, ByteMem.load_add, load_store_self,
    load_store_of_disjoint (.inl (Nat.le_refl _)), hb, hcat]

theorem streams (t : Fst) (hs : Streams data.length file buf asked calls total) (hfile : file ≠ 0) (hbuf : buf ≠ 0)
    (hd : a.content file = some data) (hb : load a.host buf (min asked data.length) = data.take asked) :
    load (specAll (Disc.call t) a calls).2.host buf (min total data.length) = data.take total := by
  induction hs generalizing a with
  | done asked => exact hb
  | next hr ho hl _ ih =>
    have hc : (a.call t _).2.content file = a.content file :=
      call_content t a (.inr (by rw [hr]; rfl) : DvdCall.spares data.length file buf _ ∨ _)
    exact ih (hc.trans hd) (call_next t a hfile hbuf hd hr ho hl hb)
  | other hsp _ ih =>
    exact ih ((call_content t a (.inl hsp)).trans hd) ((call_spares t a hsp (Nat.min_le_right _ _)).trans hb)

end Disc

/-- A file that is opened by its path and read in pieces of any lengths, whatever is done with the
rest of the disc meanwhile, is in the buffer as far as it was asked for. -/
theorem read_in_pieces {data : List UInt8} {calls : List DvdCall} {buf total e : Nat} (h : Presents t d a)
    (hr : t.resolve a.short a.cur path = some e) (hdir : t.isDir e = false) (hdata : a.bytes e = some data)
    (hfile : file ≠ 0) (hbuf : buf ≠ 0) (hs : Streams data.length file buf 0 calls total) :
    ∃ replies d', runAll execDvd d (.DVDOpen path file :: calls) = some (replies, d') ∧
      load d'.host buf (min total data.length) = data.take total := by
  obtain ⟨d', hrun, hpres⟩ := answers_as_disc h (.DVDOpen path file :: calls)
  refine ⟨_, d', hrun, ?_⟩
  have hopen : (a.call t (.DVDOpen path file)).2 =
      { a with held := update a.held file e, state := update a.state file 0 } := by
    rw [Disc.call, hr, Disc.opens, Option.filter_some, if_pos (by simp [hdir, hfile])]
  have hcontent : (a.call t (.DVDOpen path file)).2.content file = some data := by
    have hneg : ¬ (e : Int) < 0 := Int.not_lt.mpr (Int.natCast_nonneg e)
    simp only [hopen, Disc.content, update_self, hneg, if_false, Int.toNat_natCast, hdata]
  rw [hpres.host, specAll]
  exact Disc.streams t hs hfile hbuf hcontent (by rw [Nat.zero_min]; rfl)

section Trial

/-- The trial disc, with bytes for its file. -/
def trialDvd : Dvd where
  fst := trialDisc
  mirror := fun _ => 0
  files := fun e => if e = 2 then some [7, 8, 9] else none
  asyncBusySeen := 0
  infos := fun _ => ⟨0, 0, 0, 0⟩
  host := fun _ => 0

/-- The trial disc as its callers see it. -/
def trialView : Disc where
  cur := 1
  short := true
  bytes := fun e => if e = 2 then some [7, 8, 9] else none
  held := fun _ => 0
  state := fun _ => 0
  status := 0
  host := fun _ => 0

theorem trialDvd_presents : Presents trialFst trialDvd trialView where
  found := by decide
  mounted := trialDisc_mounted
  below := by
    refine ⟨by decide, fun i h0 hi => ?_⟩
    have hi : i < 3 := hi
    interval_cases i <;> decide +kernel
  cur := rfl
  short := rfl
  bytes e := by
    by_cases he : e = 2
    · subst he
      rfl
    · simp [trialView, trialDvd, he]
  held := fun _ => rfl
  state := fun _ => rfl
  status := by decide +kernel
  host := rfl

/-- In the other case the file is opened; a directory is not. -/
theorem trialDvd_answers :
    ∃ d', runAll execDvd trialDvd [.DVDOpen [98] 4, .DVDRead 4 100 2#32 1#32, .DVDOpen [46, 46] 5] =
      some ([(1, none), (2, none), (0, none)], d') ∧ d'.host 100 = 8 := by
  obtain ⟨d', hr, hs⟩ := answers_as_disc trialDvd_presents
    [.DVDOpen [98] 4, .DVDRead 4 100 2#32 1#32, .DVDOpen [46, 46] 5]
  refine ⟨d', hr.trans (congrArg (fun r => some (r, d')) (by decide +kernel)), ?_⟩
  rw [hs.host]
  decide +kernel

/-- Two bytes, another file in between, and the rest. -/
theorem trialDvd_pieces :
    ∃ replies d', runAll execDvd trialDvd [.DVDOpen [98] 4, .DVDRead 4 100 2#32 0#32, .DVDOpen [46, 46] 5,
        .DVDReadAsync 4 102 2#32 2#32 true] = some (replies, d') ∧
      load d'.host 100 3 = [7, 8, 9] := by
  have hpath : trialFst.resolve trialView.short trialView.cur [98] = some 2 := by decide +kernel
  have hdata : trialView.bytes 2 = some [7, 8, 9] := rfl
  have hspare : DvdCall.spares 3 4 100 (.DVDOpen [46, 46] 5) := show 5 ≠ 4 by decide
  have hs : Streams 3 4 100 0 [.DVDRead 4 100 2#32 0#32, .DVDOpen [46, 46] 5, .DVDReadAsync 4 102 2#32 2#32 true] 4 :=
    .next rfl rfl (by decide) (.other hspare (.next rfl rfl (by decide) (.done 4)))
  exact read_in_pieces trialDvd_presents hpath rfl hdata (by decide) (by decide) hs

end Trial

end SdkPort.DVD
