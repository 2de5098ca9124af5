import Mathlib.Data.List.DropRight
import Mathlib.Order.Bounds.Basic
import SdkPort.Lib.Trace
import SdkPort.OS.Sram

/-!
# Commits to the SRAM

No commit is lost, whatever writes fail: what waits to be written is the part of the buffer
from the least offset on that was committed since a write succeeded.
-/
namespace SdkPort.OSRtc

open Trace (Always)

variable {s s' : Scb} {l : List Commit} {c d : Commit} {level level' : Bool} {offset : Nat}

/-- The commits since the last write that succeeded. -/
def pending (l : List Commit) : List Commit := l.rtakeWhile fun c => !c.ok

/-- Every commit was written by itself or a later one, from its offset on. -/
def Covered (l : List Commit) : Prop :=
  ∀ u c v, l = u ++ c :: v → ∃ d ∈ c :: v, d.ok = true ∧ d.start ≤ c.offset

/-- A write begins at the least offset that waits for it. -/
def Reaches (u : List Commit) (c : Commit) : Prop :=
  IsLeast {x | x = c.offset ∨ ∃ d ∈ pending u, x = d.offset} c.start

theorem pending_ok (l : List Commit) (h : c.ok = true) : pending (l ++ [c]) = [] :=
  List.rtakeWhile_concat_neg _ _ _ (by simp [h])

theorem pending_failed (l : List Commit) (h : c.ok = false) : pending (l ++ [c]) = pending l ++ [c] :=
  List.rtakeWhile_concat_pos _ _ _ (by simp [h])

/-- A commit still waits, or it was written. -/
theorem waits_or_written (h : Always Reaches l) : ∀ u c v, l = u ++ c :: v →
    c ∈ pending l ∨ ∃ d ∈ c :: v, d.ok = true ∧ d.start ≤ c.offset := by
  induction l using List.reverseRecOn with
  | nil =>
    intro u c v hl
    simp at hl
  | append_singleton l e ih =>
    intro u c v hl
    obtain ⟨hl', he⟩ := Trace.always_snoc.mp h
    cases List.eq_nil_or_concat v with
    | inl hv =>
      subst hv
      obtain ⟨rfl, hce⟩ := List.append_inj' hl rfl
      cases hce
      cases hok : e.ok with
      | true => exact .inr ⟨e, List.mem_cons_self, hok, he.2 (.inl rfl)⟩
      | false =>
        rw [pending_failed _ hok]
        exact .inl (List.mem_append_right _ (List.mem_singleton_self e))
    | inr hv =>
      obtain ⟨w, z, rfl⟩ := hv
      rw [List.concat_eq_append, ← List.cons_append, ← List.append_assoc] at hl
      obtain ⟨hlw, hz⟩ := List.append_inj' hl rfl
      cases hz
      rw [List.concat_eq_append]
      obtain hc | ⟨d, hd, hok, hle⟩ := ih hl' u c w hlw
      · cases hok : e.ok with
        | true => exact .inr ⟨e, by simp, hok, he.2 (.inr ⟨c, hc, rfl⟩)⟩
        | false =>
          rw [pending_failed _ hok]
          exact .inl (List.mem_append_left _ hc)
      · refine .inr ⟨d, ?_, hok, hle⟩
        rw [← List.cons_append]
        exact List.mem_append_left _ hd

/-- Nothing waits exactly if every commit was covered. -/
theorem covered_iff (h : Always Reaches l) : Covered l ↔ pending l = [] := by
  constructor
  · intro hc
    cases List.eq_nil_or_concat l with
    | inl hl => rw [hl]; rfl
    | inr hl =>
      obtain ⟨u, c, hl⟩ := hl
      rw [List.concat_eq_append] at hl
      obtain ⟨d, hd, hok, _⟩ := hc u c [] hl
      rw [List.mem_singleton] at hd
      rw [hl]
      exact pending_ok u (hd ▸ hok)
  · intro hp u c v hl
    obtain hc | hw := waits_or_written h u c v hl
    · rw [hp] at hc
      cases hc
    · exact hw

/-- What can happen: locks, edits by the holder, unlocks by the holder, and other code that
changes the level of interrupts while nobody holds the SRAM. The level is that before the
last lock. -/
inductive SramRun (s₀ : Scb) : Scb → Bool → Prop
  | init (level : Bool) : s₀.commits = [] → SramRun s₀ (OSInitSram s₀ true) level
  | lockSram {s : Scb} {level : Bool} : SramRun s₀ s level →
      SramRun s₀ (OSLockSram s).2 (if s.locked then level else s.interrupts)
  | lockSramEx {s : Scb} {level : Bool} : SramRun s₀ s level →
      SramRun s₀ (OSLockSramEx s).2 (if s.locked then level else s.interrupts)
  | edit {s : Scb} {level : Bool} (sram : Nat → UInt8) : SramRun s₀ s level → s.locked = true →
      SramRun s₀ { s with sram := sram } level
  | unlockSram {s : Scb} {level : Bool} (commit ok : Bool) : SramRun s₀ s level → s.locked = true →
      SramRun s₀ (OSUnlockSram s commit ok).2 level
  | unlockSramEx {s : Scb} {level : Bool} (commit ok : Bool) : SramRun s₀ s level → s.locked = true →
      SramRun s₀ (OSUnlockSramEx s commit ok).2 level
  | interrupts {s : Scb} {level : Bool} (enabled : Bool) : SramRun s₀ s level → s.locked = false →
      SramRun s₀ { s with interrupts := enabled } level

/-- What holds between calls. -/
structure Sound (s : Scb) (level : Bool) : Prop where
  reaches : Always Reaches s.commits
  least : IsLeast {x | x = RTC_SRAM_SIZE ∨ ∃ d ∈ pending s.commits, x = d.offset} s.offset
  sync : s.sync = true ↔ pending s.commits = []
  held : s.locked = true → s.interrupts = false ∧ s.enabled = level

/-- A lock while the SRAM is held. -/
theorem LockSram_refused (h : s.locked = true) (hi : s.interrupts = false) (offset : Nat) :
    LockSram s offset = (none, s) := by
  obtain ⟨⟩ := s
  cases h
  cases hi
  rfl

theorem LockSram_granted (h : s.locked = false) (offset : Nat) : LockSram s offset =
    (some offset, { s with interrupts := false, enabled := s.interrupts, locked := true }) := by
  rw [LockSram]
  exact if_neg (by show ¬ s.locked = true; rw [h]; decide)

namespace Sound

/-- The buffer can change. -/
theorem congr (h : Sound s level) (hc : s'.commits = s.commits) (ho : s'.offset = s.offset)
    (hs : s'.sync = s.sync) (hh : s'.locked = true → s'.interrupts = false ∧ s'.enabled = level') :
    Sound s' level' := by
  refine ⟨?_, ?_, ?_, hh⟩
  · rw [hc]
    exact h.reaches
  · rw [hc, ho]
    exact h.least
  · rw [hc, hs]
    exact h.sync

end Sound

/-- A commit, all at once. -/
theorem commitSram_eq (s : Scb) (offset : Nat) (ok : Bool) : commitSram s offset ok =
    let start := if offset < s.offset then offset else s.offset
    let sram := if offset = 0 then sumSram s.sram else s.sram
    { s with
      sram := sram, offset := if ok then RTC_SRAM_SIZE else start, sync := ok
      device := if ok then fun x => if start ≤ x ∧ x < start + (RTC_SRAM_SIZE - start) then sram x else s.device x
        else s.device
      commits := s.commits ++ [⟨offset, start, ok⟩] } := by
  unfold commitSram
  by_cases h0 : offset = 0 <;> by_cases hlt : offset < s.offset <;> cases ok <;>
    simp [h0, hlt, WriteSram] <;> simp_all

namespace Sound

/-- The write of a commit begins at the least offset that waits. -/
theorem start_least (h : Sound s level) (offset : Nat) (hoff : offset < RTC_SRAM_SIZE) :
    IsLeast {x | x = offset ∨ ∃ d ∈ pending s.commits, x = d.offset}
      (if offset < s.offset then offset else s.offset) := by
  obtain ⟨hmem, hle⟩ := h.least
  by_cases hlt : offset < s.offset
  · rw [if_pos hlt]
    refine ⟨.inl rfl, ?_⟩
    rintro x (rfl | hx)
    · exact Nat.le_refl _
    · exact Nat.le_trans (Nat.le_of_lt hlt) (hle (.inr hx))
  · rw [if_neg hlt]
    have hne : s.offset ≠ RTC_SRAM_SIZE := by omega
    refine ⟨.inr (hmem.resolve_left hne), ?_⟩
    rintro x (rfl | hx)
    · exact Nat.le_of_not_lt hlt
    · exact hle (.inr hx)

/-- A commit keeps what holds; the device follows the buffer if its write succeeds. -/
theorem commit (h : Sound s level) (hoff : offset < RTC_SRAM_SIZE) (ok : Bool) :
    Sound (commitSram s offset ok) level ∧ (ok = true → ∀ o,
      IsLeast {x | x = offset ∨ ∃ d ∈ pending s.commits, x = d.offset} o → ∀ x, o ≤ x → x < RTC_SRAM_SIZE →
        (commitSram s offset ok).device x = (commitSram s offset ok).sram x) := by
  have hstart := h.start_least offset hoff
  rw [commitSram_eq]
  dsimp only
  generalize (if offset < s.offset then offset else s.offset) = start at hstart
  have hle : start ≤ offset := hstart.2 (.inl rfl)
  refine ⟨⟨Trace.always_snoc.mpr ⟨h.reaches, hstart⟩, ?_, ?_, h.held⟩, ?_⟩
  · cases ok with
    | true =>
      dsimp only
      rw [pending_ok _ rfl]
      refine ⟨.inl rfl, ?_⟩
      rintro x (rfl | ⟨d, hd, _⟩)
      · exact Nat.le_refl _
      · cases hd
    | false =>
      dsimp only
      rw [pending_failed _ rfl]
      obtain ⟨hmem, hlow⟩ := hstart
      refine ⟨.inr ?_, ?_⟩
      · obtain heq | ⟨d, hd, heq⟩ := hmem
        · exact ⟨_, List.mem_append_right _ (List.mem_singleton_self _), heq⟩
        · exact ⟨d, List.mem_append_left _ hd, heq⟩
      · rintro x (rfl | ⟨d, hd, rfl⟩)
        · show start ≤ _
          omega
        · cases List.mem_append.mp hd with
          | inl hd => exact hlow (.inr ⟨d, hd, rfl⟩)
          | inr hd => exact hlow (.inl (List.mem_singleton.mp hd ▸ rfl))
  · cases ok with
    | true => simp [pending_ok]
    | false => simp [pending_failed]
  · rintro rfl o ho x hox hx
    have hsame : o = start := ho.unique hstart
    exact if_pos ⟨by omega, by omega⟩

/-- An unlock by the holder. -/
theorem unlock (h : Sound s level) (hl : s.locked = true) (hoff : offset < RTC_SRAM_SIZE) (commit ok : Bool) :
    Sound (UnlockSram s commit offset ok).2 level ∧ (UnlockSram s commit offset ok).2.interrupts = level := by
  have hheld := h.held hl
  cases commit with
  | false => exact ⟨h.congr rfl rfl rfl nofun, hheld.2⟩
  | true =>
    obtain ⟨hc, _⟩ := h.commit hoff ok
    have henabled : (commitSram s offset ok).enabled = s.enabled := by rw [commitSram_eq]
    exact ⟨hc.congr rfl rfl rfl nofun, henabled.trans hheld.2⟩

theorem lock (h : Sound s level) (offset : Nat) :
    Sound (LockSram s offset).2 (if s.locked then level else s.interrupts) := by
  cases hl : s.locked with
  | true =>
    rw [LockSram_refused hl (h.held hl).1]
    exact h
  | false =>
    rw [LockSram_granted hl]
    exact h.congr rfl rfl rfl fun _ => ⟨rfl, rfl⟩

end Sound

theorem OSLockSram_refused (h : s.locked = true) (hi : s.interrupts = false) : OSLockSram s = (none, s) := by
  rw [OSLockSram, LockSram_refused h hi]

/-- What holds between calls holds after any of them. -/
theorem SramRun.sound {s₀ : Scb} (h : SramRun s₀ s level) : Sound s level := by
  induction h with
  | init level hc =>
    refine ⟨?_, ?_, ?_, nofun⟩
    · show Always Reaches _
      rw [show (OSInitSram s₀ true).commits = s₀.commits from rfl, hc]
      exact Trace.always_nil _
    · rw [show (OSInitSram s₀ true).commits = s₀.commits from rfl, hc]
      refine ⟨.inl rfl, ?_⟩
      rintro x (rfl | ⟨d, hd, _⟩)
      · exact Nat.le_refl _
      · cases hd
    · rw [show (OSInitSram s₀ true).commits = s₀.commits from rfl, hc]
      exact ⟨fun _ => rfl, fun _ => rfl⟩
  | @lockSram s level _ ih =>
    have hlock := ih.lock 0
    cases hl : s.locked with
    | true =>
      rw [OSLockSram_refused hl (ih.held hl).1]
      exact ih
    | false =>
      rw [hl, LockSram_granted hl] at hlock
      rw [OSLockSram, LockSram_granted hl]
      exact hlock.congr rfl rfl rfl hlock.held
  | lockSramEx _ ih => exact ih.lock sramExOffset
  | edit sram _ _ ih => exact ih.congr rfl rfl rfl ih.held
  | unlockSram commit ok _ hl ih => exact (ih.unlock hl (by decide) commit ok).1
  | unlockSramEx commit ok _ hl ih => exact (ih.unlock hl (by decide) commit ok).1
  | interrupts enabled _ hl ih => exact ih.congr rfl rfl rfl fun h => absurd (hl.symm.trans h) nofun

/-- Commits are never lost. While the SRAM is held a lock is refused and changes nothing,
and interrupts stay disabled until an unlock brings back their level. A commit whose write
succeeds makes the device follow the buffer from the least offset on that waited; and the
flag tells whether every commit was covered by a write. -/
theorem sram_commits {s₀ : Scb} (h : SramRun s₀ s level) :
    (s.locked = true → OSLockSram s = (none, s) ∧ OSLockSramEx s = (none, s) ∧ s.interrupts = false ∧
      ∀ commit ok, (OSUnlockSram s commit ok).2.interrupts = level ∧
        (OSUnlockSramEx s commit ok).2.interrupts = level) ∧
    (s.locked = true → ∀ o,
      (IsLeast {x | x = 0 ∨ ∃ d ∈ pending s.commits, x = d.offset} o → ∀ x, o ≤ x → x < RTC_SRAM_SIZE →
        (OSUnlockSram s true true).2.device x = (OSUnlockSram s true true).2.sram x) ∧
      (IsLeast {x | x = sramExOffset ∨ ∃ d ∈ pending s.commits, x = d.offset} o →
        ∀ x, o ≤ x → x < RTC_SRAM_SIZE →
          (OSUnlockSramEx s true true).2.device x = (OSUnlockSramEx s true true).2.sram x)) ∧
    (s.sync = true ↔ Covered s.commits) := by
  have hs := h.sound
  refine ⟨?_, ?_, hs.sync.trans (covered_iff hs.reaches).symm⟩
  · intro hl
    have hi := (hs.held hl).1
    exact ⟨OSLockSram_refused hl hi, LockSram_refused hl hi _, hi, fun commit ok =>
      ⟨(hs.unlock hl (by decide) commit ok).2, (hs.unlock hl (by decide) commit ok).2⟩⟩
  · intro _ o
    constructor
    · intro ho x hox hx
      exact (hs.commit (by decide) true).2 rfl o ho x hox hx
    · intro ho x hox hx
      exact (hs.commit (by decide) true).2 rfl o ho x hox hx

section Trial

def trialScb : Scb := ⟨fun _ => 7, 64, false, false, false, true, 0, fun _ => 7, []⟩

/-- Locked again after a commit whose write failed. -/
def trialHeld : Scb := (OSLockSram (OSUnlockSramEx (OSLockSramEx (OSInitSram trialScb true)).2 true false).2).2

theorem trialHeld_run : SramRun trialScb trialHeld true :=
  (SramRun.unlockSramEx true false (.lockSramEx (.init true rfl)) rfl).lockSram

/-- The next commit brings everything to the device, the check sum for one. -/
theorem trialHeld_commits :
    (OSUnlockSram trialHeld true true).2.device 0 = (OSUnlockSram trialHeld true true).2.sram 0 := by
  have h := ((sram_commits trialHeld_run).2.1 rfl 0).1 ⟨.inl rfl, fun _ _ => Nat.zero_le _⟩
  exact h 0 (Nat.zero_le 0) (by decide)

end Trial

end SdkPort.OSRtc
