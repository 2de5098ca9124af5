import SdkPort.Card.Dir
import SdkPort.Lib.ByteMem

/-!
# Looking up a file

A stored name fills its field or ends at the first NUL. The search finds the first entry
that may be accessed and whose stored name is the string.
-/
namespace SdkPort.CardDir

open Gc (GcMem u32)

/-- The directory of a card is mapped. -/
structure DirMapped (card : DirControl) : Prop where
  fits : card.dirAddr + PORT_CARD_MAX_FILE * PORT_CARD_DIR_SIZE ≤ 2 ^ 32
  maps : card.mem.Maps card.dirAddr (card.dirAddr + PORT_CARD_MAX_FILE * PORT_CARD_DIR_SIZE)

/-- The bytes of a field up to the first NUL. -/
def untilNul (bytes : List UInt8) : List UInt8 := bytes.takeWhile (· ≠ 0)

/-- A byte field of an entry. -/
def field (card : DirControl) (fileNo off len : Nat) : List UInt8 :=
  ByteMem.load card.mem.byte (card.dirAddr + fileNo * PORT_CARD_DIR_SIZE + off) len

def storedName (card : DirControl) (fileNo : Nat) : List UInt8 :=
  untilNul (field card fileNo PORT_CARD_DIR_OFF_FILENAME PORT_CARD_FILENAME_MAX)

/-- An entry in use that belongs to the game and the company, if any are set. -/
def Accessible (card : DirControl) (fileNo : Nat) : Prop :=
  field card fileNo PORT_CARD_DIR_OFF_GAMENAME 1 ≠ [0xFF] ∧
    (card.diskIDIsNone ∨ field card fileNo PORT_CARD_DIR_OFF_GAMENAME 4 = card.gameName.toList ∧
      field card fileNo PORT_CARD_DIR_OFF_COMPANY 2 = card.company.toList)

def Matches (card : DirControl) (fileName : CString) (fileNo : Nat) : Prop :=
  Accessible card fileNo ∧ storedName card fileNo = fileName.bytes

instance (card : DirControl) (n : Nat) : Decidable (Accessible card n) := inferInstanceAs (Decidable (_ ∧ _))

instance (card : DirControl) (fileName : CString) (n : Nat) : Decidable (Matches card fileName n) :=
  inferInstanceAs (Decidable (_ ∧ _))

variable {card : DirControl} {fileName : CString} {m : GcMem} {a n left fileNo off len : Nat} {pfileNo : Int}
  {name : List UInt8} {b : UInt8}

section Field

theorem loadU8_eq (h : m.Maps a (a + 1)) : loadU8 m a = some (m.byte a) := by
  rw [loadU8, GcMem.ptr_of_maps h]
  rfl

theorem loadBytes_eq (h : m.Maps a (a + n)) :
    ∃ v, loadBytes m a n = some v ∧ v.toList = ByteMem.load m.byte a n := by
  refine ⟨_, by rw [loadBytes, GcMem.ptr_of_maps h]; rfl, ?_⟩
  apply List.ext_getElem
  · simp
  · intro i h₁ h₂
    have hb := h.1
    simp only [Vector.getElem_toList, Vector.getElem_ofFn, ByteMem.load, List.getElem_map, List.getElem_range,
      GcMem.byte]
    congr 1
    omega

theorem load_succ (f : Nat → UInt8) (a n : Nat) : ByteMem.load f a (n + 1) = f a :: ByteMem.load f (a + 1) n := by
  rw [Nat.add_comm n 1, ByteMem.load_add]
  rfl

/-- Where the fields of an entry are. -/
theorem DirMapped.addr (h : DirMapped card) (hn : fileNo < PORT_CARD_MAX_FILE) (off len : Nat)
    (ho : off + len ≤ PORT_CARD_DIR_SIZE) (hl : 0 < len) :
    u32 (entAddr card fileNo + off) = card.dirAddr + fileNo * PORT_CARD_DIR_SIZE + off ∧
      card.dirAddr + fileNo * PORT_CARD_DIR_SIZE + off + len ≤ 2 ^ 32 ∧
      card.mem.Maps (card.dirAddr + fileNo * PORT_CARD_DIR_SIZE + off)
        (card.dirAddr + fileNo * PORT_CARD_DIR_SIZE + off + len) := by
  obtain ⟨hf, hlo, hhi⟩ := h
  unfold PORT_CARD_MAX_FILE PORT_CARD_DIR_SIZE at *
  refine ⟨?_, by omega, by omega, by omega⟩
  unfold entAddr u32 PORT_CARD_DIR_SIZE
  omega

end Field

section Name

theorem untilNul_nul (l : List UInt8) : untilNul (0 :: l) = [] := rfl

theorem untilNul_cons (hb : b ≠ 0) (l : List UInt8) : untilNul (b :: l) = b :: untilNul l :=
  List.takeWhile_cons_of_pos (by simpa using hb)

/-- The comparison stops at the first difference or at the end of both. -/
theorem compareLoop_eq (hf : a + n < 2 ^ 32) (hm : m.Maps a (a + n)) (hname : ∀ c ∈ name, c ≠ 0) :
    compareLoop m n a name = some (decide (untilNul (ByteMem.load m.byte a n) = name)) := by
  induction n generalizing a name with
  | zero =>
    cases name with
    | nil => rfl
    | cons b name =>
      have hb := hname b List.mem_cons_self
      simp [compareLoop, hb, ByteMem.load, untilNul]
  | succ n ih =>
    obtain ⟨hlo, hhi⟩ := hm
    have hu : u32 (a + 1) = a + 1 := Nat.mod_eq_of_lt (by omega)
    rw [compareLoop, loadU8_eq ⟨hlo, by omega⟩, Option.bind_some, load_succ, hu]
    dsimp only
    cases name with
    | nil =>
      by_cases h0 : m.byte a = 0
      · simp [h0, untilNul_nul]
      · simp [h0, untilNul_cons h0]
    | cons b name =>
      have hb := hname b List.mem_cons_self
      rw [List.headD_cons, List.tail_cons, if_neg hb]
      by_cases hab : m.byte a = b
      · rw [if_neg (not_not.mpr hab), ih (by omega) ⟨by omega, by omega⟩ fun c hc => hname c (List.mem_cons_of_mem _ hc),
          hab, untilNul_cons hb]
        simp
      · rw [if_pos hab]
        by_cases h0 : m.byte a = 0
        · simp [h0, untilNul_nul]
        · simp [hab, untilNul_cons h0]

theorem portCARDCompareFileName_eq (h : DirMapped card) (hn : fileNo < PORT_CARD_MAX_FILE) :
    portCARDCompareFileName card.mem (entAddr card fileNo) fileName =
      some (decide (storedName card fileNo = fileName.bytes)) := by
  obtain ⟨ha, -, -⟩ := h.addr hn PORT_CARD_DIR_OFF_FILENAME PORT_CARD_FILENAME_MAX (by decide)
    (by decide)
  -- a byte more: the address behind the name is one of the entry
  obtain ⟨-, hfit, hlo, hhi⟩ := h.addr hn PORT_CARD_DIR_OFF_FILENAME (PORT_CARD_FILENAME_MAX + 1)
    (by decide) (by decide)
  rw [portCARDCompareFileName, ha]
  exact compareLoop_eq (by omega) ⟨hlo, by omega⟩ fileName.nonzero

end Name

section Search

/-- Access is granted exactly to the accessible entries. -/
theorem portCARDAccess_eq (h : DirMapped card) (hn : fileNo < PORT_CARD_MAX_FILE) :
    ∃ r, portCARDAccess card (entAddr card fileNo) = some r ∧ (r < 0 ↔ ¬ Accessible card fileNo) := by
  obtain ⟨ha, -, hm⟩ := h.addr hn PORT_CARD_DIR_OFF_GAMENAME 1 (by decide) (by decide)
  have hfirst : field card fileNo PORT_CARD_DIR_OFF_GAMENAME 1 =
      [card.mem.byte (card.dirAddr + fileNo * PORT_CARD_DIR_SIZE + PORT_CARD_DIR_OFF_GAMENAME)] := rfl
  obtain ⟨-, -, hm₄⟩ := h.addr hn PORT_CARD_DIR_OFF_GAMENAME 4 (by decide) (by decide)
  obtain ⟨ha₂, -, hm₂⟩ := h.addr hn PORT_CARD_DIR_OFF_COMPANY 2 (by decide) (by decide)
  obtain ⟨game, hgame, hg⟩ := loadBytes_eq hm₄
  obtain ⟨company, hcompany, hc⟩ := loadBytes_eq hm₂
  rw [portCARDAccess, ha, loadU8_eq hm, Option.bind_some, hgame, Option.bind_some, ha₂, hcompany, Option.map_some]
  rw [Accessible, hfirst, field, field, ← hg, ← hc, Vector.toList_inj, Vector.toList_inj]
  by_cases hF : card.mem.byte (card.dirAddr + fileNo * PORT_CARD_DIR_SIZE + PORT_CARD_DIR_OFF_GAMENAME) = 0xFF
  · rw [if_pos hF, hF]
    exact ⟨_, rfl, by simp [PORT_CARD_DIR_RESULT_NOFILE]⟩
  · rw [if_neg hF]
    by_cases hd : card.diskIDIsNone
    · rw [if_pos hd]
      exact ⟨_, rfl, by simp [hF, hd, PORT_CARD_DIR_RESULT_READY]⟩
    · rw [if_neg hd]
      by_cases hgc : game = card.gameName
      · rw [if_pos hgc]
        by_cases hcc : company = card.company
        · rw [if_pos hcc]
          exact ⟨_, rfl, by simp [hF, hgc, hcc, PORT_CARD_DIR_RESULT_READY]⟩
        · rw [if_neg hcc]
          exact ⟨_, rfl, by simp [hd, hcc, PORT_CARD_DIR_RESULT_NOPERM]⟩
      · rw [if_neg hgc]
        exact ⟨_, rfl, by simp [hd, hgc, PORT_CARD_DIR_RESULT_NOPERM]⟩

theorem getFileNoLoop_found (h : DirMapped card) (hn : fileNo < PORT_CARD_MAX_FILE)
    (hm : Matches card fileName fileNo) :
    getFileNoLoop card fileName pfileNo (left + 1) fileNo = some (PORT_CARD_DIR_RESULT_READY, (fileNo : Int)) := by
  obtain ⟨r, hr, hneg⟩ := portCARDAccess_eq h hn
  rw [getFileNoLoop, hr, Option.bind_some, if_neg fun hlt => hneg.mp hlt hm.1, portCARDCompareFileName_eq h hn,
    Option.bind_some, if_pos (decide_eq_true hm.2)]

theorem getFileNoLoop_next (h : DirMapped card) (hn : fileNo < PORT_CARD_MAX_FILE)
    (hm : ¬ Matches card fileName fileNo) : getFileNoLoop card fileName pfileNo (left + 1) fileNo =
      getFileNoLoop card fileName pfileNo left (fileNo + 1) := by
  obtain ⟨r, hr, hneg⟩ := portCARDAccess_eq h hn
  rw [getFileNoLoop, hr, Option.bind_some]
  by_cases hacc : Accessible card fileNo
  · have hname : storedName card fileNo ≠ fileName.bytes := fun he => hm ⟨hacc, he⟩
    rw [if_neg fun hlt => hneg.mp hlt hacc, portCARDCompareFileName_eq h hn, Option.bind_some,
      if_neg (by simpa using hname)]
  · exact if_pos (hneg.mpr hacc)

/-- The first of the entries left, or none of them. -/
theorem getFileNoLoop_spec (fileName : CString) (pfileNo : Int) (h : DirMapped card) (hn : fileNo + left = PORT_CARD_MAX_FILE) :
    (∃ i, fileNo ≤ i ∧ i < PORT_CARD_MAX_FILE ∧ Matches card fileName i ∧
      (∀ j, fileNo ≤ j → j < i → ¬ Matches card fileName j) ∧
      getFileNoLoop card fileName pfileNo left fileNo = some (PORT_CARD_DIR_RESULT_READY, (i : Int))) ∨
    (∀ i, fileNo ≤ i → i < PORT_CARD_MAX_FILE → ¬ Matches card fileName i) ∧
      getFileNoLoop card fileName pfileNo left fileNo = some (PORT_CARD_DIR_RESULT_NOFILE, pfileNo) := by
  induction left generalizing fileNo with
  | zero => exact .inr ⟨fun i h₁ h₂ => by omega, rfl⟩
  | succ left ih =>
    have hlt : fileNo < PORT_CARD_MAX_FILE := by omega
    by_cases hm : Matches card fileName fileNo
    · exact .inl ⟨fileNo, Nat.le_refl _, hlt, hm, fun j h₁ h₂ => by omega, getFileNoLoop_found h hlt hm⟩
    · rw [getFileNoLoop_next h hlt hm]
      have hrest : ∀ j, fileNo ≤ j → ¬ fileNo + 1 ≤ j → ¬ Matches card fileName j := by
        intro j h₁ h₂
        rwa [show j = fileNo by omega]
      have hnext : fileNo + 1 + left = PORT_CARD_MAX_FILE := by omega
      cases ih hnext with
      | inl hi =>
        obtain ⟨i, h₁, h₂, h₃, h₄, h₅⟩ := hi
        refine .inl ⟨i, by omega, h₂, h₃, fun j h₆ h₇ => ?_, h₅⟩
        by_cases hj : fileNo + 1 ≤ j
        · exact h₄ j hj h₇
        · exact hrest j h₆ hj
      | inr hi =>
        refine .inr ⟨fun j h₁ h₂ => ?_, hi.2⟩
        by_cases hj : fileNo + 1 ≤ j
        · exact hi.1 j hj h₂
        · exact hrest j h₁ hj

/-- The search ends at the first matching entry, or finds that no entry matches. -/
theorem getFileNo_cases (h : DirMapped card) (ha : card.attached) (fileName : CString) (pfileNo : Int) :
    (∃ i < PORT_CARD_MAX_FILE, Matches card fileName i ∧ (∀ j < i, ¬ Matches card fileName j) ∧
      portCARDGetFileNo card fileName pfileNo = some (PORT_CARD_DIR_RESULT_READY, (i : Int))) ∨
    (∀ i < PORT_CARD_MAX_FILE, ¬ Matches card fileName i) ∧
      portCARDGetFileNo card fileName pfileNo = some (PORT_CARD_DIR_RESULT_NOFILE, pfileNo) := by
  have hloop : portCARDGetFileNo card fileName pfileNo = getFileNoLoop card fileName pfileNo PORT_CARD_MAX_FILE 0 :=
    if_neg (not_not.mpr ha)
  rw [hloop]
  cases getFileNoLoop_spec fileName pfileNo h (Nat.zero_add PORT_CARD_MAX_FILE) with
  | inl hfound =>
    obtain ⟨i, -, hi, hm, hfirst, hr⟩ := hfound
    exact .inl ⟨i, hi, hm, fun j hj => hfirst j (Nat.zero_le j) hj, hr⟩
  | inr hnone => exact .inr ⟨fun i hi => hnone.1 i (Nat.zero_le i) hi, hnone.2⟩

end Search

/-- The search finds the first accessible entry of that name, and fails exactly when there is
none; a name that is only a part of the other one is another name. -/
theorem getFileNo_first (h : DirMapped card) (ha : card.attached) (fileName : CString) (pfileNo : Int) :
    (∀ n : Nat, n < PORT_CARD_MAX_FILE →
      (portCARDGetFileNo card fileName pfileNo = some (PORT_CARD_DIR_RESULT_READY, (n : Int)) ↔
        Matches card fileName n ∧ ∀ j < n, ¬ Matches card fileName j)) ∧
    (portCARDGetFileNo card fileName pfileNo = some (PORT_CARD_DIR_RESULT_NOFILE, pfileNo) ↔
      ∀ n < PORT_CARD_MAX_FILE, ¬ Matches card fileName n) ∧
    (∃ r i, portCARDGetFileNo card fileName pfileNo = some (r, i) ∧
      (r = PORT_CARD_DIR_RESULT_READY ∧ (∃ n < PORT_CARD_MAX_FILE, i = (n : Int)) ∨
        r = PORT_CARD_DIR_RESULT_NOFILE ∧ i = pfileNo)) ∧
    ∀ n < PORT_CARD_MAX_FILE, storedName card n <+: fileName.bytes ∨ fileName.bytes <+: storedName card n →
      storedName card n ≠ fileName.bytes →
        portCARDCompareFileName card.mem (entAddr card n) fileName = some false := by
  have hne : PORT_CARD_DIR_RESULT_READY ≠ PORT_CARD_DIR_RESULT_NOFILE := by decide
  have hother : ∀ n < PORT_CARD_MAX_FILE, storedName card n ≠ fileName.bytes →
      portCARDCompareFileName card.mem (entAddr card n) fileName = some false := by
    intro n hn hname
    rw [portCARDCompareFileName_eq h hn, decide_eq_false hname]
  cases getFileNo_cases h ha fileName pfileNo with
  | inl hfound =>
    obtain ⟨i, hi, hm, hfirst, hr⟩ := hfound
    refine ⟨?_, ?_, ⟨_, _, hr, .inl ⟨rfl, i, hi, rfl⟩⟩, fun n hn _ => hother n hn⟩
    · intro n hn
      rw [hr, Option.some_inj, Prod.mk.injEq, Int.natCast_inj]
      constructor
      · intro ⟨_, he⟩
        subst he
        exact ⟨hm, hfirst⟩
      · intro ⟨hmn, hleast⟩
        refine ⟨rfl, Nat.le_antisymm ?_ ?_⟩
        · exact Nat.le_of_not_lt fun hlt => hfirst n hlt hmn
        · exact Nat.le_of_not_lt fun hlt => hleast i hlt hm
    · rw [hr, Option.some_inj, Prod.mk.injEq]
      exact iff_of_false (fun he => hne he.1) fun hnone => hnone i hi hm
  | inr hnone =>
    obtain ⟨hnone, hr⟩ := hnone
    refine ⟨?_, iff_of_true hr hnone, ⟨_, _, hr, .inr ⟨rfl, rfl⟩⟩, fun n hn _ => hother n hn⟩
    intro n hn
    rw [hr, Option.some_inj, Prod.mk.injEq]
    exact iff_of_false (fun he => hne he.1.symm) fun hm => hnone n hn hm.1

/-- A directory with the name "ab" in its second entry. -/
def twoFiles : DirControl where
  mem := ⟨4096, 8192, fun x =>
    if x = 64 + 8 then 97 else if x = 64 + 9 then 98 else if x < 64 then 255 else 0⟩
  attached := true
  cBlock := 10
  sectorSize := 8192
  dirAddr := 4096
  fatAddr := 4096
  gameName := #v[0, 0, 0, 0]
  company := #v[0, 0]
  diskIDIsNone := false

theorem nonzero_ab : ∀ b ∈ ([97, 98] : List UInt8), b ≠ 0 := by
  simp

theorem twoFiles_mapped : DirMapped twoFiles := ⟨by decide, by decide, by decide⟩

theorem twoFiles_first : portCARDGetFileNo twoFiles ⟨[97, 98], nonzero_ab⟩ 77 = some (PORT_CARD_DIR_RESULT_READY, 1) :=
  have hfirst := getFileNo_first twoFiles_mapped rfl ⟨[97, 98], nonzero_ab⟩ 77
  (hfirst.1 1 (by decide)).mpr ⟨by decide +kernel, by decide +kernel⟩

end SdkPort.CardDir
