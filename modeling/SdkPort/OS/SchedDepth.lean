import SdkPort.OS.SchedFrame

/-!
# Recursion depths over lists

Beside the scheduler a ghost keeps the recursion depth of every mutex and the depths
that condition waits have saved. Each operation that takes or releases a mutex moves
the count word and the ghost together.
-/
namespace SdkPort.OSThread

/-- The recursion depth of every mutex, and what each thread waiting on a condition has
saved: the mutex and the depth it will have again. -/
structure Ghost where
  depth : Addr → Nat
  saved : Addr → Option (Addr × Nat)

namespace Ghost

def blank : Ghost := ⟨fun _ => 0, fun _ => none⟩

@[simps] def setDepth (g : Ghost) (m : Addr) (d : Nat) : Ghost :=
  { g with depth := Function.update g.depth m d }

@[simps] def setSaved (g : Ghost) (t : Addr) (v : Option (Addr × Nat)) : Ghost :=
  { g with saved := Function.update g.saved t v }

/-- One more acquisition. -/
@[simps!] def take (g : Ghost) (m : Addr) : Ghost := g.setDepth m (g.depth m + 1)

/-- A thread ends and its mutexes are released. -/
@[simps] def bury (g : Ghost) (owner : Addr → Addr) (t : Addr) : Ghost where
  depth m := if owner m = t then 0 else g.depth m
  saved := Function.update g.saved t none

/-- A deferred grant of a free mutex: a saved depth comes back, otherwise it is one
acquisition. -/
def grant (g : Ghost) (t m : Addr) : Ghost :=
  match g.saved t with
  | some p => (g.setDepth m p.2).setSaved t none
  | none => g.take m

/-- Another try of `t` for the mutex it names: granted if free, one more acquisition by
its owner, and nothing if it belongs to another thread. -/
def retry (g : Ghost) (owner t m : Addr) : Ghost :=
  if owner = 0 then g.grant t m else if owner = t then g.take m else g

end Ghost

namespace Sched

open Runs (bind_eq_ok)

variable {W : Prop} {a b c : Sched} {g : Ghost} {t u m : Addr} {n : Nat}

/-- What the words of a thread say about the depth it has saved. -/
def Saves (th : Tcb) : Option (Addr × Nat) → Prop
  | none => th.val = 0xFFFFFFFF
  | some p => th.val = p.2 ∧ th.mutex = p.1 ∧ p.1 ≠ 0 ∧ 1 ≤ p.2 ∧ p.2 < 2 ^ 31

theorem Saves.congr {th th' : Tcb} {v : Option (Addr × Nat)} (h : Saves th v)
    (hv : th'.val = th.val ∧ th'.mutex = th.mutex) : Saves th' v := by
  cases v with
  | none => exact hv.1.trans h
  | some p => exact ⟨hv.1.trans h.1, hv.2.trans h.2.1, h.2.2⟩

/-- Counts are depths, free mutexes have depth 0, and the words of live threads hold
the saved depths. -/
structure Tally (a : Sched) (g : Ghost) : Prop where
  count : ∀ m, (a.mtx m).count = g.depth m
  bound : ∀ m, g.depth m < 2 ^ 31
  owned : ∀ m, (a.mtx m).thread = 0 ↔ g.depth m = 0
  saved : ∀ t, a.live t → Saves (a.tcb t) (g.saved t)
  apart : ∀ t p, t ≠ 0 → a.live t → g.saved t = some p → (a.mtx p.1).thread ≠ t

theorem checkS32_ok {v w : Int} (h : checkS32 v = .ok w) : w = v ∧ w < 2 ^ 31 := by
  unfold checkS32 at h
  split at h
  · rename_i hv
    cases h
    exact ⟨rfl, hv.2⟩
  · cases h

theorem toU32_nat {d : Nat} (h : d < 2 ^ 31) : toU32 (d : Int) = d := by
  unfold toU32
  omega

theorem toS32_nat {d : Nat} (h : d < 2 ^ 31) : toS32 d = (d : Int) := if_pos h

/-- A running thread without pending lock has nothing saved. -/
theorem Tally.saved_current (h : Tally a g) (hr : a.CurrentRuns)
    (h0 : (a.tcb a.currentThread).mutex = 0) : g.saved a.currentThread = none := by
  have hs := h.saved a.currentThread hr.live
  cases hg : g.saved a.currentThread with
  | none => rfl
  | some p =>
    rw [hg] at hs
    exact absurd (hs.2.1.symm.trans h0) hs.2.2.1

theorem Tally.quiet (h : Tally a g) (hq : Quiet a b) : Tally b g := by
  refine ⟨?_, h.bound, ?_, ?_, ?_⟩
  · rw [hq.mtx]
    exact h.count
  · rw [hq.mtx]
    exact h.owned
  · intro t hl
    exact (h.saved t (hq.live t hl)).congr (hq.words t hl)
  · intro t p h0 hl
    rw [hq.mtx]
    exact h.apart t p h0 (hq.live t hl)

theorem Tally.buried (h : Tally a g) (hb : Buried t a b) (ht : t ≠ 0) :
    Tally b (g.bury (fun m => (a.mtx m).thread) t) := by
  have hne : ∀ u, b.live u → u ≠ t := by
    intro u hl he
    subst he
    exact hb.dead hl
  refine ⟨?_, ?_, ?_, ?_, ?_⟩
  · intro m
    rw [hb.released, Ghost.bury_depth]
    split
    · rfl
    · exact h.count m
  · intro m
    rw [Ghost.bury_depth]
    split
    · decide
    · exact h.bound m
  · intro m
    rw [hb.released, Ghost.bury_depth]
    split
    · simp
    · exact h.owned m
  · intro u hl
    rw [Ghost.bury_saved, Function.update_of_ne (hne u hl)]
    exact (h.saved u (hb.live u hl)).congr (hb.words u hl)
  · intro u p h0 hl hp
    rw [Ghost.bury_saved, Function.update_of_ne (hne u hl)] at hp
    rw [hb.released]
    split
    · exact h0.symm
    · exact h.apart u p h0 (hb.live u hl) hp

/-- The owner's count and depth move together; other mutexes keep theirs. -/
theorem Tally.setCount (h : Tally a g) {d : Nat} (hd : 1 ≤ d) (hlt : d < 2 ^ 31)
    (hm : (a.mtx m).thread ≠ 0) : Tally (a.modM m ({ · with count := (d : Int) })) (g.setDepth m d) := by
  refine ⟨?_, ?_, ?_, h.saved, ?_⟩
  · intro k
    by_cases hk : k = m
    · subst hk
      simp
    · simpa [hk] using h.count k
  · intro k
    by_cases hk : k = m
    · subst hk
      simpa using hlt
    · simpa [hk] using h.bound k
  · intro k
    by_cases hk : k = m
    · subst hk
      simp [hm]
      omega
    · simpa [hk] using h.owned k
  · intro t p h0 hl hp
    have hap := h.apart t p h0 hl hp
    by_cases hk : p.1 = m
    · rw [hk] at hap ⊢
      simpa using hap
    · simpa [hk] using hap

/-- The last release of a mutex. -/
theorem Tally.free (h : Tally a g) (m : Addr) (hq : ∀ k, b.mtx k = if k = m then ⟨0, 0⟩ else a.mtx k)
    (hl : ∀ t, b.live t → a.live t)
    (hw : ∀ t, b.live t → (b.tcb t).val = (a.tcb t).val ∧ (b.tcb t).mutex = (a.tcb t).mutex) :
    Tally b (g.setDepth m 0) := by
  refine ⟨?_, ?_, ?_, fun t ht => (h.saved t (hl t ht)).congr (hw t ht), ?_⟩
  · intro k
    rw [hq]
    by_cases hk : k = m
    · simp [hk]
    · simpa [hk] using h.count k
  · intro k
    by_cases hk : k = m
    · simp [hk]
    · simpa [hk] using h.bound k
  · intro k
    rw [hq]
    by_cases hk : k = m
    · simp [hk]
    · simpa [hk] using h.owned k
  · intro t p h0 ht hp
    rw [hq]
    split
    · exact h0.symm
    · exact h.apart t p h0 (hl t ht) hp

/-- A free mutex gets an owner with nothing saved, to any depth. -/
theorem Tally.own (h : Tally a g) {d : Nat} (hd : 1 ≤ d) (hlt : d < 2 ^ 31) (ht : t ≠ 0)
    (hs : g.saved t = none) (l : List Addr) :
    Tally ((a.modM m fun _ => ⟨t, (d : Int)⟩).setOwned t l) (g.setDepth m d) := by
  refine ⟨?_, ?_, ?_, h.saved, ?_⟩
  · intro k
    by_cases hk : k = m
    · subst hk
      simp
    · simpa [hk] using h.count k
  · intro k
    by_cases hk : k = m
    · subst hk
      simpa using hlt
    · simpa [hk] using h.bound k
  · intro k
    by_cases hk : k = m
    · subst hk
      simp [ht]
      omega
    · simpa [hk] using h.owned k
  · intro u p h0 hl hp
    by_cases hk : p.1 = m
    · have hu : t ≠ u := by
        intro he
        subst he
        have hp' : g.saved t = some p := hp
        rw [hs] at hp'
        cases hp'
      simpa [hk] using hu
    · simpa [hk] using h.apart u p h0 hl hp

theorem Tally.acquire (h : Tally a g) (ht : t ≠ 0) (hm : (a.mtx m).thread = 0)
    (hs : g.saved t = none) (hb : a.acquire t m = .ok b) : Tally b (g.take m) := by
  obtain ⟨count, hc, hb⟩ := bind_eq_ok.mp hb
  obtain ⟨he, hlt⟩ := checkS32_ok hc
  cases hb
  rw [h.count, (h.owned m).mp hm] at he
  subst he
  have hd := (h.owned m).mp hm
  simp only [Ghost.take, hd]
  exact h.own (d := 1) (by omega) (by omega) ht hs _

theorem Tally.relock (h : Tally a g) (hm : (a.mtx m).thread ≠ 0) (hb : a.relock m = .ok b) :
    Tally b (g.take m) := by
  obtain ⟨count, hc, hb⟩ := bind_eq_ok.mp hb
  obtain ⟨he, hlt⟩ := checkS32_ok hc
  cases hb
  rw [h.count] at he
  have he' : count = ((g.depth m + 1 : Nat) : Int) := by omega
  subst he'
  exact h.setCount (by omega) (by omega) hm

/-- Other words of the scheduler do not matter. -/
theorem Tally.congr (h : Tally a g) (hm : b.mtx = a.mtx) (ht : b.tcb = a.tcb) : Tally b g := by
  have hl : ∀ t, b.live t ↔ a.live t := fun t => by simp [Sched.live, ht]
  refine ⟨?_, h.bound, ?_, ?_, ?_⟩
  · rw [hm]
    exact h.count
  · rw [hm]
    exact h.owned
  · intro t
    rw [hl, ht]
    exact h.saved t
  · intro t p
    rw [hl, hm]
    exact h.apart t p

theorem Tally.changeScheduler (h : Tally a g) {d : Int} (hb : a.changeScheduler d = .ok b) :
    Tally b g := by
  obtain ⟨_, _, hb⟩ := bind_eq_ok.mp hb
  cases hb
  exact h.congr rfl rfl

/-- The words of one thread change together with what it has saved. -/
theorem Tally.setSaved (h : Tally a g) {f : Tcb → Tcb} {v : Option (Addr × Nat)}
    (hf : Saves (f (a.tcb t)) v) (hap : ∀ p, v = some p → (a.mtx p.1).thread ≠ t) :
    Tally (a.modT t f) (g.setSaved t v) := by
  refine ⟨h.count, h.bound, h.owned, ?_, ?_⟩
  · intro u hl
    by_cases hu : u = t
    · subst hu
      simpa using hf
    · simpa [hu] using h.saved u (by simpa [Sched.live, hu] using hl)
  · intro u p h0 hl hp
    by_cases hu : u = t
    · subst hu
      exact hap p (by simpa using hp)
    · exact h.apart u p h0 (by simpa [Sched.live, hu] using hl) (by simpa [hu] using hp)

/-- A contended lock changes the mutex word of the caller and nothing else that counts. -/
theorem Fit.quiet_blockOn (h : Fine W a) (hr : a.CurrentRuns) (hm : MutexAddr m)
    (hb : a.blockOn n m = .ok b) : Quiet (a.modT a.currentThread ({ · with mutex := m })) b := by
  obtain ⟨c, hc, hb⟩ := bind_eq_ok.mp hb
  cases hb
  obtain ⟨_, _, hcc, hrep, hrc⟩ := h.promoted hr hm rfl hc
  exact hrep.quiet.trans (hcc.quiet_sleepThread (by simp) hrc (QueueAddr.mutex_isWait m))

theorem Tally.blockOn (h : Tally a g) (hf : Fine W a) (hr : a.CurrentRuns) (hm : MutexAddr m)
    (hs : ∀ p, g.saved a.currentThread = some p → p.1 = m) (hb : a.blockOn n m = .ok b) :
    Tally b g := by
  have hsv := h.saved a.currentThread hr.live
  have hnamed : Tally (a.modT a.currentThread ({ · with mutex := m }))
      (g.setSaved a.currentThread (g.saved a.currentThread)) := by
    apply h.setSaved
    · cases hg : g.saved a.currentThread with
      | none => rwa [hg] at hsv
      | some p =>
        rw [hg] at hsv
        exact ⟨hsv.1, (hs p hg).symm, hsv.2.2⟩
    · exact fun p hp => h.apart _ p hr.1 hr.live hp
  have hself : g.setSaved a.currentThread (g.saved a.currentThread) = g := by
    simp [Ghost.setSaved]
  rw [hself] at hnamed
  exact hnamed.quiet (hf.quiet_blockOn hr hm hb)

/-- Lock counts one more acquisition unless the mutex belongs to another thread. -/
theorem Tally.lockMutex (h : Tally a g) (hf : Fine W a) (hr : a.CurrentRuns) (hm : MutexAddr m)
    (hs : g.saved a.currentThread = none) (hb : a.lockMutex n m = .ok b) :
    Tally b (if (a.mtx m).thread = 0 ∨ (a.mtx m).thread = a.currentThread then g.take m else g) := by
  unfold Sched.lockMutex at hb
  split at hb
  · rename_i h0
    rw [if_pos (.inl h0)]
    exact h.acquire hr.1 h0 hs hb
  split at hb
  · rename_i h0 hown
    rw [if_pos (.inr hown)]
    exact h.relock h0 hb
  · rename_i h0 hown
    rw [if_neg (by tauto)]
    exact h.blockOn hf hr hm (by simp [hs]) hb

theorem Tally.tryLockMutex (h : Tally a g) (hr : a.CurrentRuns)
    (hs : g.saved a.currentThread = none) (hb : a.tryLockMutex m = .ok b) :
    Tally b (if (a.mtx m).thread = 0 ∨ (a.mtx m).thread = a.currentThread then g.take m else g) := by
  unfold Sched.tryLockMutex at hb
  split at hb
  · rename_i h0
    rw [if_pos (.inl h0)]
    exact h.acquire hr.1 h0 hs hb
  split at hb
  · rename_i h0 hown
    rw [if_pos (.inr hown)]
    exact h.relock h0 hb
  · rename_i h0 hown
    cases hb
    rw [if_neg (by tauto)]
    exact h

theorem release_mtx (a : Sched) (t m k : Addr) :
    (a.release t m).mtx k = if k = m then ⟨0, 0⟩ else a.mtx k := by
  unfold Sched.release Sched.dropBoost
  split <;> simp [Function.update_apply]

theorem release_words (a : Sched) (t m u : Addr) :
    ((a.release t m).tcb u).val = (a.tcb u).val ∧
      ((a.release t m).tcb u).mutex = (a.tcb u).mutex := by
  unfold Sched.release Sched.dropBoost
  split
  · by_cases hu : u = t <;> simp [hu]
  · simp

theorem release_live (a : Sched) (t m u : Addr) : (a.release t m).live u ↔ a.live u := by
  unfold Sched.release Sched.dropBoost
  split
  · by_cases hu : u = t <;> simp [Sched.live, hu]
  · simp [Sched.live]

theorem Tally.release (h : Tally a g) (t m : Addr) : Tally (a.release t m) (g.setDepth m 0) :=
  h.free m (release_mtx a t m) (fun u => (release_live a t m u).mp) fun u _ => release_words a t m u

/-- Unlock takes one from the depth. -/
theorem Tally.unlockMutex (h : Tally a g) (hf : Fine W a) (hr : a.CurrentRuns)
    (hb : a.unlockMutex m = .ok b) :
    Tally b (if (a.mtx m).thread = a.currentThread then g.setDepth m (g.depth m - 1) else g) := by
  unfold Sched.unlockMutex at hb
  split at hb
  · rename_i hown
    rw [if_pos hown]
    obtain ⟨count, hc, hb⟩ := bind_eq_ok.mp hb
    obtain ⟨he, _⟩ := checkS32_ok hc
    rw [h.count] at he
    have h0 : (a.mtx m).thread ≠ 0 := hown ▸ hr.1
    have hd : g.depth m ≠ 0 := fun hd => h0 ((h.owned m).mpr hd)
    have hlt := h.bound m
    split at hb
    · cases hb
      have hz : g.depth m - 1 = 0 := by omega
      rw [hz]
      have hrel := (hf.shape.release (by simp) hr hown).1
      exact (h.release a.currentThread m).quiet (hrel.quiet_wakeupThread (QueueAddr.mutex_isWait m))
    · cases hb
      have he' : count = ((g.depth m - 1 : Nat) : Int) := by omega
      subst he'
      exact h.setCount (by omega) (by omega) h0
  · rename_i hown
    cases hb
    rw [if_neg hown]
    exact h

/-- A condition wait by the owner saves the depth and releases the mutex. -/
theorem Tally.waitCond (h : Tally a g) (hf : Fine W a) (hr : a.CurrentRuns) (hm : MutexAddr m)
    {c : Nat} (hb : a.waitCond c m = .ok b) :
    Tally b (if (a.mtx m).thread = a.currentThread then
      (g.setDepth m 0).setSaved a.currentThread (some (m, g.depth m)) else g) := by
  unfold Sched.waitCond at hb
  split at hb
  · rename_i hown
    cases hb
    rw [if_neg hown]
    exact h
  rename_i hown
  have hown : (a.mtx m).thread = a.currentThread := by simpa using hown
  rw [if_pos hown]
  obtain ⟨d, hd, hb⟩ := bind_eq_ok.mp hb
  obtain ⟨e, he, hb⟩ := bind_eq_ok.mp hb
  cases hb
  obtain ⟨⟨hsd, _⟩, _, hse, hre⟩ := hf.shape.waitStages hr hown hd he
  have htd := (h.release a.currentThread m).changeScheduler hd
  have hte := (htd.quiet (hsd.quiet_wakeupThread (QueueAddr.mutex_isWait m))).changeScheduler he
  have hq := hse.core.quiet_sleepThread (by simp) hre (q := .cond c) trivial
  have hts := hte.quiet hq
  have hdep : g.depth m ≠ 0 := fun hz => hr.1 (hown.symm.trans ((h.owned m).mpr hz))
  have hlt := h.bound m
  apply hts.setSaved
  · refine ⟨?_, rfl, hm.1, by omega, hlt⟩
    show toU32 (a.mtx m).count = g.depth m
    rw [h.count, toU32_nat hlt]
  · intro p hp
    cases hp
    have hz : ((e.sleepThread (.cond c)).mtx m).thread = 0 := by
      rw [hts.owned]
      simp
    rw [hz]
    exact hr.1.symm

/-- A thread is created with nothing saved. -/
theorem Tally.createThread (h : Tally a g) {slot : Nat}
    (hu : (a.tcb (PORT_THREAD_ADDR slot)).state = .unused) (p : Int) (attr : Nat) :
    Tally (a.createThread slot p attr) (g.setSaved (PORT_THREAD_ADDR slot) none) := by
  unfold Sched.createThread
  split
  · refine ⟨h.count, h.bound, h.owned, ?_, ?_⟩
    · intro u hl
      have hne : u ≠ PORT_THREAD_ADDR slot := fun he => hl.1 (he ▸ hu)
      simpa [hne] using h.saved u hl
    · intro u q h0 hl hq
      have hne : u ≠ PORT_THREAD_ADDR slot := fun he => hl.1 (he ▸ hu)
      exact h.apart u q h0 hl (by simpa [hne] using hq)
  · have hs := h.setSaved (t := PORT_THREAD_ADDR slot) (v := none) (f := fun _ =>
      { state := .ready, attr := attr % 2, base := p.toNat, priority := p.toNat,
        suspend := 1, val := 0xFFFFFFFF, queue := .null, mutex := 0 }) rfl nofun
    exact hs.congr rfl rfl

theorem Tally.initMutex (h : Tally a g) (h0 : (a.mtx m).thread = 0) : Tally (a.initMutex m) g := by
  have hd := (h.owned m).mp h0
  have hfree : Tally (a.initMutex m) (g.setDepth m 0) :=
    h.free m (fun k => by simp [Sched.initMutex, Function.update_apply]) (fun _ => id)
      fun _ _ => ⟨rfl, rfl⟩
  have hself : g.setDepth m 0 = g := by
    simp [Ghost.setDepth, ← hd]
  rwa [hself] at hfree

/-- The grant of a free mutex to a thread that has a depth saved. -/
theorem Tally.regrant (h : Tally a g) (hr : a.CurrentRuns) {p : Addr × Nat}
    (hs : g.saved a.currentThread = some p) (hm : (a.tcb a.currentThread).mutex = m)
    (h0 : (a.mtx m).thread = 0)
    (hb : (a.modT a.currentThread ({ · with mutex := 0 })).acquire a.currentThread m = .ok b) :
    Tally (b.restoreCount a.currentThread m (a.tcb a.currentThread).val)
      (g.grant a.currentThread m) := by
  obtain ⟨count, hc, hb⟩ := bind_eq_ok.mp hb
  obtain ⟨he, _⟩ := checkS32_ok hc
  have hsv := h.saved a.currentThread hr.live
  rw [hs] at hsv
  obtain ⟨hval, hmut, _, h1, hlt⟩ := hsv
  rw [hm] at hmut
  subst hmut
  have hd := (h.owned p.1).mp h0
  have hcount : count = 1 := by
    have hz := h.count p.1
    rw [hd] at hz
    simp only [modT_mtx] at he
    omega
  subst hcount
  cases hb
  have hforget : Tally (a.modT a.currentThread ({ · with mutex := 0, val := 0xFFFFFFFF }))
      (g.setSaved a.currentThread none) := h.setSaved rfl nofun
  have hown := hforget.own (m := p.1) h1 hlt hr.1 (by simp) (a.owned a.currentThread ++ [p.1])
  have hgrant : g.grant a.currentThread p.1 =
      (g.setSaved a.currentThread none).setDepth p.1 p.2 := by
    simp [Ghost.grant, hs, Ghost.setDepth, Ghost.setSaved]
  rw [hgrant]
  refine hown.congr ?_ ?_
  · unfold Sched.restoreCount
    rw [if_pos ⟨by omega, by simp, by simp⟩, hval, toS32_nat hlt]
    simp
  · unfold Sched.restoreCount
    rw [if_pos ⟨by omega, by simp, by simp⟩]
    simp

/-- A retry counts as the ghost says, unless it grants a free mutex to a thread whose
value word is the initial one. -/
theorem Tally.retryLock (h : Tally a g) (hf : Fine W a) (hp : a.pendingLock = some (t, m))
    (hQ : (a.mtx m).thread = 0 → (a.tcb t).val ≠ 0xFFFFFFFF)
    (hb : a.retryLock n t m = .ok b) : Tally b (g.retry (a.mtx m).thread t m) := by
  obtain ⟨hr, ht, hm, hm0⟩ := pendingLock_eq hp
  simp only at ht hm hm0
  subst ht
  have hma : MutexAddr m := by
    rw [hm] at hm0 ⊢
    exact hf.shape.pending _ hm0
  have hsv := h.saved a.currentThread hr.live
  obtain ⟨c, hc, hb⟩ := bind_eq_ok.mp hb
  cases hb
  unfold Sched.lockMutex at hc
  unfold Ghost.retry
  simp only [modT_mtx, modT_currentThread] at hc
  split at hc
  · rename_i h0
    rw [if_pos h0]
    cases hs : g.saved a.currentThread with
    | none =>
      rw [hs] at hsv
      exact absurd hsv (hQ h0)
    | some p => exact h.regrant hr hs hm.symm h0 hc
  rename_i h0
  rw [if_neg h0]
  split at hc
  · rename_i hown
    rw [if_pos hown]
    cases hs : g.saved a.currentThread with
    | some p =>
      have hap := h.apart _ p hr.1 hr.live hs
      rw [hs] at hsv
      exact absurd hown (by rwa [← hsv.2.1, ← hm] at hap)
    | none =>
      have hclear : Tally (a.modT a.currentThread ({ · with mutex := 0 }))
          (g.setSaved a.currentThread none) := h.setSaved (by rwa [hs] at hsv) nofun
      have hself : g.setSaved a.currentThread none = g := by
        simp [Ghost.setSaved, ← hs]
      rw [hself] at hclear
      have hc' := hclear.relock h0 hc
      -- the count is at least 2 now, so that nothing is restored
      have hcount : (c.mtx m).count ≠ 1 := by
        have hd : g.depth m ≠ 0 := fun hd => h0 ((h.owned m).mpr hd)
        rw [hc'.count]
        simp
        omega
      rw [Sched.restoreCount, if_neg (by tauto)]
      exact hc'
  · rename_i hown
    rw [if_neg hown]
    have hblock : (a.modT a.currentThread ({ · with mutex := 0 })).blockOn n m = a.blockOn n m := by
      simp only [Sched.blockOn, modT_modT, modT_currentThread]
    rw [hblock] at hc
    have hq := hf.quiet_blockOn hr hma hc
    have hthread : (c.mtx m).thread ≠ a.currentThread := by
      rw [hq.mtx]
      exact hown
    rw [Sched.restoreCount, if_neg (by tauto)]
    refine h.blockOn hf hr hma ?_ hc
    intro p hs
    rw [hs] at hsv
    rw [hm, hsv.2.1]

end Sched

end SdkPort.OSThread
