import SdkPort.OS.SchedShape

/-!
# Every operation keeps the shape

The operations of the interface one by one, and the loop that retries pending
locks. Nothing is assumed of the run but that operations of the current thread
are called while it runs, threads are created in free slots, and objects are not
initialised while in use.
-/
namespace SdkPort.OSThread.Sched

variable {X D H : Set Addr} {a b : Sched} {t m : Addr} {q : QueueAddr} {n : Nat}

theorem setOwned_self {l : List Addr} (h : a.owned t = l) : a.setOwned t l = a := by
  subst h
  simp [setOwned]

theorem setQueue_self {l : List Addr} (h : a.queue q = l) : a.setQueue q l = a := by
  subst h
  simp [setQueue]

/-- A mutex loses its owner while its waiters are still queued. -/
theorem Shape.disown (h : Shape X D H a) (hm : m ∈ a.owned t) :
    Shape X D (insert m H) (a.disown t m) := by
  have ht := (h.owned t m).mp hm
  refine ⟨(h.core.setOwned _ _).modM m _, ?_, ?_, ?_, ?_, h.pending, h.names, ?_⟩
  · intro u
    by_cases he : u = t
    · subst he
      simpa using (h.nodup _).erase m
    · simpa [he] using h.nodup u
  · intro u k
    have hou := h.owned u k
    by_cases hk : k = m
    · subst hk
      by_cases he : u = t
      · subst he
        simp [(h.nodup _).mem_erase_iff, Ne.symm ht.1]
      · have hnot : k ∉ a.owned u := by
          rw [hou]
          exact fun hu => he (hu.2.symm.trans ht.2)
        simp [he, hnot, eq_comm]
    · by_cases he : u = t
      · subst he
        simp [(h.nodup _).mem_erase_iff, hk, hou]
      · simp [he, hk, hou]
  · intro k
    by_cases hk : k = m
    · subst hk
      simp
    · simpa [hk] using h.addr k
  · intro k
    by_cases hk : k = m
    · subst hk
      simp
    · simpa [hk, Sched.live] using h.live k
  · intro k u hk hu
    simp only [Set.mem_insert_iff, not_or] at hk
    simpa [hk.1] using h.held k u hk.2 hu

/-- The running owner gives up a mutex whose waiters are still to be woken. -/
theorem Shape.release (h : Shape X D H a) (hX : a.currentThread ∉ X) (hr : a.CurrentRuns)
    (hm : (a.mtx m).thread = a.currentThread) :
    Shape X D (insert m H) (a.release a.currentThread m) ∧
      (a.release a.currentThread m).CurrentRuns := by
  have hb := h.disown ((h.owned a.currentThread m).mpr ⟨hr.1, hm⟩)
  have hr' : (a.disown a.currentThread m).CurrentRuns := hr
  unfold Sched.release Sched.dropBoost
  split
  · refine ⟨hb.modCurrent hX hr' hr.2 rfl rfl (hb.core.effectivePriority_le _)
      (hb.pending _), ?_⟩
    exact ⟨hr.1, by simp [hr.2]⟩
  · exact ⟨hb, hr'⟩

/-- A dying thread releases the first of its mutexes. -/
theorem Shape.unlockHead (h : Shape X D H a) (hX : a.currentThread ∉ X) (hm : m ∈ a.owned t) :
    Shape X D H (Sched.unlockHead t a m) := (h.disown hm).wakeupMutex hX

end SdkPort.OSThread.Sched
