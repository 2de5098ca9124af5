import SdkPort.Lib.RingBuffer
import SdkPort.OS.MessageFrame
import SdkPort.OS.View

/-!
# A message queue is a bounded deque

Sending appends a message, jamming puts one in front and receiving takes the first,
in every run of the interface from the initialisation of the queue on. A call that
is refused changes nothing, except that a blocking one makes its caller sleep.
-/
namespace SdkPort.OSThread

open RingBuffer (Deque window window_length window_pushBack window_pushFront window_popFront)
open Runs (Gives gives_bind gives_pure run_bind_ok)
open Sched (Core Shape Sound Fit Fine)

/-- A call on a message queue. -/
inductive Message where
  | send (msg flags : Nat)
  | receive (flags : Nat)
  | jam (msg flags : Nat)
  deriving DecidableEq, Repr

inductive Reply where
  | failed | done
  | got (msg : Nat)
  deriving DecidableEq, Repr

namespace Message

def op (k : Nat) : Message → Op
  | send msg flags => .send k msg flags
  | receive flags => .receive k flags
  | jam msg flags => .jam k msg flags

def flags : Message → Nat
  | send _ flags | receive flags | jam _ flags => flags

/-- The wait queue of callers that the call would join. -/
def waitQueue (k : Nat) : Message → QueueAddr
  | send _ _ | jam _ _ => .msgSend k
  | receive _ => .msgRecv k

def exec (k : Nat) : Message → M Reply
  | send msg flags => do
    let ok ← portOSSendMessage k msg flags
    pure (if ok then .done else .failed)
  | receive flags => do
    let msg ← portOSReceiveMessage k flags
    pure (msg.elim .failed .got)
  | jam msg flags => do
    let ok ← portOSJamMessage k msg flags
    pure (if ok then .done else .failed)

/-- The call on a deque. -/
def answer {c : Nat} (d : Deque Nat c) : Message → Reply × Deque Nat c
  | send msg _ => (d.pushBack msg).elim (.failed, d) fun d' => (.done, d')
  | receive _ => d.popFront.elim (.failed, d) fun p => (.got p.1, p.2)
  | jam msg _ => (d.pushFront msg).elim (.failed, d) fun d' => (.done, d')

/-- A deque is full for senders and empty for receivers. -/
def Refused {c : Nat} (d : Deque Nat c) : Message → Prop
  | send _ _ | jam _ _ => d.items.length = c
  | receive _ => d.items = []

theorem failed_iff {c : Nat} (d : Deque Nat c) (o : Message) :
    (o.answer d).1 = .failed ↔ o.Refused d := by
  cases o with
  | send msg _ =>
    rw [answer, Refused, ← Deque.full, ← Deque.pushBack_eq_none (x := msg)]
    cases d.pushBack msg <;> simp
  | receive _ =>
    rw [answer, Refused, ← Deque.popFront_eq_none]
    cases d.popFront <;> simp
  | jam msg _ =>
    rw [answer, Refused, ← Deque.full, ← Deque.pushFront_eq_none (x := msg)]
    cases d.pushFront msg <;> simp

theorem answer_refused {c : Nat} {d : Deque Nat c} {o : Message} (h : o.Refused d) :
    o.answer d = (.failed, d) := by
  cases o with
  | send msg _ => simp [answer, Deque.pushBack_eq_none.mpr h]
  | receive _ => simp [answer, Deque.popFront_eq_none.mpr h]
  | jam msg _ => simp [answer, Deque.pushFront_eq_none.mpr h]

end Message

/-- The messages a queue stores, from the first on. -/
def MsgQueue.content (q : MsgQueue) : List Nat :=
  window q.msgCount q.msgs q.firstIndex q.usedCount

/-- The queue stores the deque. -/
structure MsgQueue.Stores {c : Nat} (q : MsgQueue) (d : Deque Nat c) : Prop where
  msgCount : q.msgCount = c
  first : q.firstIndex < c
  content : q.content = d.items

namespace MsgQueue.Stores

variable {c : Nat} {q : MsgQueue} {d : Deque Nat c}

theorem used (h : q.Stores d) : q.usedCount = d.items.length := by
  simpa [MsgQueue.content] using congrArg List.length h.content

theorem full_iff (h : q.Stores d) : q.msgCount ≤ q.usedCount ↔ d.full := by
  rw [h.msgCount, h.used]
  exact ⟨fun hle => Nat.le_antisymm d.bounded hle, fun he => Nat.le_of_eq (Eq.symm he)⟩

end MsgQueue.Stores

namespace Sched

/-- The call over lists. -/
def message (a : Sched) (k : Nat) : Message → Sched
  | .send msg flags => a.sendMessage k msg flags
  | .receive flags => a.receiveMessage k flags
  | .jam msg flags => a.jamMessage k msg flags

def reply (a : Sched) (k : Nat) : Message → Reply
  | .send _ _ | .jam _ _ => if a.accepts k then .done else .failed
  | .receive _ => (a.firstMessage k).elim .failed .got

theorem apply_op (a : Sched) (k n : Nat) (o : Message) : a.apply n (o.op k) = .ok (a.message k o) := by
  cases o <;> rfl

variable {a b : Sched} {k c : Nat} {d : Deque Nat c} {o : Message}

/-- A refused call is at most a sleep. -/
theorem message_refused (h : (a.msgq k).Stores d) (hr : o.Refused d) :
    a.message k o = a.blockIf o.flags (o.waitQueue k) ∧ a.reply k o = .failed := by
  cases o with
  | send msg flags =>
    have hf := h.full_iff.mpr hr
    simp [message, sendMessage, reply, accepts, hf, Message.flags, Message.waitQueue]
  | receive flags =>
    have hu : (a.msgq k).usedCount = 0 := by
      rw [h.used, show d.items = [] from hr]
      rfl
    simp [message, receiveMessage, reply, firstMessage, hu, Message.flags, Message.waitQueue]
  | jam msg flags =>
    have hf := h.full_iff.mpr hr
    simp [message, jamMessage, reply, accepts, hf, Message.flags, Message.waitQueue]

theorem send_stores (h : (a.msgq k).Stores d) (hd : ¬ d.full) (msg flags : Nat) :
    ((a.sendMessage k msg flags).msgq k).Stores
      ⟨d.items ++ [msg], Deque.length_append_le hd msg⟩ := by
  have hf : ¬ (a.msgq k).msgCount ≤ (a.msgq k).usedCount := fun hle => hd (h.full_iff.mp hle)
  simp only [sendMessage, hf, if_false, wakeupThread_msgq, modQ_msgq, Function.update_self]
  refine ⟨h.msgCount, h.first, ?_⟩
  have hw := window_pushBack (f := (a.msgq k).msgs) (i := (a.msgq k).firstIndex) (x := msg)
    (Nat.not_le.mp hf)
  exact hw.trans (congrArg (· ++ [msg]) h.content)

theorem jam_stores (h : (a.msgq k).Stores d) (hd : ¬ d.full) (msg flags : Nat) :
    ((a.jamMessage k msg flags).msgq k).Stores ⟨msg :: d.items, Deque.length_lt hd⟩ := by
  have hf : ¬ (a.msgq k).msgCount ≤ (a.msgq k).usedCount := fun hle => hd (h.full_iff.mp hle)
  simp only [jamMessage, hf, if_false, wakeupThread_msgq, modQ_msgq, Function.update_self]
  refine ⟨h.msgCount, ?_, ?_⟩
  · rw [h.msgCount]
    exact Nat.mod_lt _ (Nat.zero_lt_of_lt h.first)
  · have hw := window_pushFront (f := (a.msgq k).msgs) (i := (a.msgq k).firstIndex) (x := msg)
      (Nat.not_le.mp hf)
    exact hw.trans (congrArg (msg :: ·) h.content)

/-- The message received is the first one, and the others stay. -/
theorem receive_stores (h : (a.msgq k).Stores d) {x : Nat} {l : List Nat} (hd : d.items = x :: l)
    (flags : Nat) : a.firstMessage k = some x ∧ ((a.receiveMessage k flags).msgq k).Stores
      (⟨l, Nat.le_of_succ_le (by have := d.bounded; rwa [hd] at this)⟩ : Deque Nat c) := by
  have hu : (a.msgq k).usedCount ≠ 0 := by
    rw [h.used, hd]
    exact Nat.succ_ne_zero _
  have hlt : (a.msgq k).firstIndex < (a.msgq k).msgCount := by
    rw [h.msgCount]
    exact h.first
  have hw := (window_popFront (f := (a.msgq k).msgs) hu hlt).symm.trans (h.content.trans hd)
  obtain ⟨hx, hl⟩ := List.cons.inj hw
  refine ⟨by simp [firstMessage, hu, hx], ?_⟩
  simp only [receiveMessage, hu, if_false, wakeupThread_msgq, modQ_msgq, Function.update_self]
  refine ⟨h.msgCount, ?_, hl⟩
  rw [h.msgCount]
  exact Nat.mod_lt _ (Nat.zero_lt_of_lt h.first)

/-- Every call on the queue is the call on the deque. -/
theorem message_stores (h : (a.msgq k).Stores d) (o : Message) :
    a.reply k o = (o.answer d).1 ∧ ((a.message k o).msgq k).Stores (o.answer d).2 := by
  by_cases hr : o.Refused d
  · obtain ⟨hm, hv⟩ := message_refused h hr
    rw [Message.answer_refused hr, hm, hv, blockIf_msgq]
    exact ⟨rfl, h⟩
  · cases o with
    | send msg flags =>
      have hacc : a.accepts k = true :=
        decide_eq_true (Nat.not_le.mp fun hle => hr (h.full_iff.mp hle))
      have hd : ¬ d.full := hr
      simp only [reply, hacc, Message.answer, Deque.pushBack, hd, dif_neg, not_false_iff, if_true]
      exact ⟨rfl, send_stores h hd msg flags⟩
    | receive flags =>
      obtain ⟨_ | ⟨x, l⟩, hb⟩ := d
      · exact absurd rfl hr
      · obtain ⟨hx, hs⟩ := receive_stores h rfl flags
        simp only [reply, hx, Message.answer, Deque.popFront]
        exact ⟨rfl, hs⟩
    | jam msg flags =>
      have hacc : a.accepts k = true :=
        decide_eq_true (Nat.not_le.mp fun hle => hr (h.full_iff.mp hle))
      have hd : ¬ d.full := hr
      simp only [reply, hacc, Message.answer, Deque.pushFront, hd, dif_neg, not_false_iff, if_true]
      exact ⟨rfl, jam_stores h hd msg flags⟩

/-- The caller sleeps exactly if the call is refused and may block. -/
theorem Shape.message_sleeps (h : Sound a) (hst : (a.msgq k).Stores d) (hr : a.CurrentRuns) :
    (((a.message k o).tcb a.currentThread).state = .waiting ∧
      a.currentThread ∈ (a.message k o).queue (o.waitQueue k)) ↔ o.Refused d ∧ OSThread.blocks o.flags := by
  by_cases href : o.Refused d
  · rw [(message_refused hst href).1, blockIf]
    by_cases hb : OSThread.blocks o.flags
    · have hq : (o.waitQueue k).isWait := by cases o <;> trivial
      simpa [hb, href] using h.core.sleeps hr hq
    · simp [hb, hr.2]
  · have hwake : ∀ g q, q.isWait → (((a.modQ k g).wakeupThread q).tcb a.currentThread).state
        ≠ .waiting := by
      intro g q hq hw
      have hm := ((h.core.modQ k g).wakeupThread (Set.notMem_empty _) hq).2.1
      have he := hm.waiting _ hw
      rw [he, modQ_tcb, hr.2] at hw
      cases hw
    simp only [href, false_and, iff_false, not_and]
    intro hw
    cases o with
    | send msg flags =>
      have hf : ¬ (a.msgq k).msgCount ≤ (a.msgq k).usedCount := fun hle => href (hst.full_iff.mp hle)
      simp only [message, sendMessage, hf, if_false] at hw
      exact absurd hw (hwake _ _ trivial)
    | receive flags =>
      have hu : (a.msgq k).usedCount ≠ 0 := by
        rw [hst.used]
        exact fun he => href (List.eq_nil_of_length_eq_zero he)
      simp only [message, receiveMessage, hu, if_false] at hw
      exact absurd hw (hwake _ _ trivial)
    | jam msg flags =>
      have hf : ¬ (a.msgq k).msgCount ≤ (a.msgq k).usedCount := fun hle => href (hst.full_iff.mp hle)
      simp only [message, jamMessage, hf, if_false] at hw
      exact absurd hw (hwake _ _ trivial)

end Sched

variable {s s' : St} {a : Sched} {k c n : Nat} {o : Message} {r : Reply} {log : List (Message × Reply)}

theorem Rep.message (h : Rep s a) (hs : Sound a) (hg : (o.op k).Guarded s) :
    Gives Rep (o.exec k s) (a.reply k o) (a.message k o) := by
  cases o with
  | send msg flags =>
    exact gives_bind (h.gives_send hs (fun hb => h.running.mp (hg hb)) k msg) fun _ h₁ => gives_pure _ h₁
  | receive flags =>
    exact gives_bind (h.gives_receive hs (fun hb => h.running.mp (hg hb)) k) fun _ h₁ => gives_pure _ h₁
  | jam msg flags =>
    exact gives_bind (h.gives_jam hs (fun hb => h.running.mp (hg hb)) k msg) fun _ h₁ => gives_pure _ h₁

theorem run_mqGet {α β : Type} {f : MsgQueue → α} {g : α → M β} : (mqGet k f >>= g) s = g (f (s.msgq k)) s :=
  run_bind_ok rfl

/-- A refused call that may not block does nothing at all. -/
theorem Message.exec_refused {d : Deque Nat c} (h : (s.msgq k).Stores d) (hr : o.Refused d)
    (hb : ¬ blocks o.flags) : o.exec k s = .ok (.failed, s) := by
  cases o with
  | send msg flags =>
    have hf := h.full_iff.mpr hr
    have hb' : ¬ blocks flags := hb
    have hrun : portOSSendMessage k msg flags s = .ok (false, s) := by
      unfold portOSSendMessage
      rw [run_mqGet, run_mqGet]
      simp [hf, hb']
    exact run_bind_ok hrun
  | receive flags =>
    have hu : (s.msgq k).usedCount = 0 := by
      rw [h.used, show d.items = [] from hr]
      rfl
    have hb' : ¬ blocks flags := hb
    have hrun : portOSReceiveMessage k flags s = .ok (none, s) := by
      unfold portOSReceiveMessage
      rw [run_mqGet]
      simp [hu, hb']
    exact run_bind_ok hrun
  | jam msg flags =>
    have hf := h.full_iff.mpr hr
    have hb' : ¬ blocks flags := hb
    have hrun : portOSJamMessage k msg flags s = .ok (false, s) := by
      unfold portOSJamMessage
      rw [run_mqGet, run_mqGet]
      simp [hf, hb']
    exact run_bind_ok hrun

/-- Runs from the initialisation of queue `k` with capacity `c` on, with the calls on
the queue and what they returned. Other calls and the processing of pending locks
may come at any point. -/
inductive Queued (k c : Nat) : List (Message × Reply) → St → Prop
  | init {s s' : St} {ph : Phase} : Reached AnyCall ph s → (Op.initMessageQueue k c).Guarded s →
      portOSInitMessageQueue k c s = .ok ((), s') → Queued k c [] s'
  | message {s s' : St} {log : List (Message × Reply)} {o : Message} {r : Reply} :
      Queued k c log s → (o.op k).Guarded s → o.exec k s = .ok (r, s') → Queued k c (log ++ [(o, r)]) s'
  | other {s s' : St} {log : List (Message × Reply)} {o : Op} {n : Nat} : Queued k c log s →
      o.Guarded s → ¬ o.Uses k → o.exec n s = .ok ((), s') → Queued k c log s'
  | locks {s s' : St} {log : List (Message × Reply)} {n j : Nat} : Queued k c log s →
      portProcessPendingLocks n j s = .ok ((), s') → Queued k c log s'

/-- The deque gives the logged replies one after the other and ends as `d'`. -/
inductive Replays (d : Deque Nat c) : List (Message × Reply) → Deque Nat c → Prop
  | nil : Replays d [] d
  | snoc {log : List (Message × Reply)} {d' : Deque Nat c} (o : Message) :
      Replays d log d' → Replays d (log ++ [(o, (o.answer d').1)]) (o.answer d').2

/-- The messages a log accepts, in order. -/
def accepted (log : List (Message × Reply)) : List Nat :=
  log.filterMap fun
    | (.send msg _, .done) | (.jam msg _, .done) => some msg
    | _ => none

/-- The messages a log hands out, in order. -/
def received (log : List (Message × Reply)) : List Nat :=
  log.filterMap fun
    | (_, .got msg) => some msg
    | _ => none

def Message.isJam : Message → Prop
  | .jam _ _ => True
  | _ => False

theorem accepted_snoc (log : List (Message × Reply)) (e : Message × Reply) :
    accepted (log ++ [e]) = accepted log ++ accepted [e] := List.filterMap_append

theorem received_snoc (log : List (Message × Reply)) (e : Message × Reply) :
    received (log ++ [e]) = received log ++ received [e] := List.filterMap_append

/-- One call moves at most one message. -/
theorem Message.answer_moves (d : Deque Nat c) (o : Message) :
    let e := (o, (o.answer d).1)
    (received [e] ++ (o.answer d).2.items).Perm (d.items ++ accepted [e]) ∧
      (¬ o.isJam → received [e] ++ (o.answer d).2.items = d.items ++ accepted [e]) := by
  by_cases hr : o.Refused d
  · rw [Message.answer_refused hr]
    cases o <;> simp [accepted, received]
  · cases o with
    | send msg flags =>
      have hd : ¬ d.full := hr
      simp [answer, Deque.pushBack, hd, accepted, received]
    | receive flags =>
      obtain ⟨_ | ⟨x, l⟩, hb⟩ := d
      · exact absurd rfl hr
      · simp [answer, Deque.popFront, accepted, received]
    | jam msg flags =>
      have hd : ¬ d.full := hr
      simp only [answer, Deque.pushFront, hd, dif_neg, not_false_iff, Option.elim, isJam,
        not_true, false_implies, and_true]
      have hcomm : ([msg] ++ d.items).Perm (d.items ++ [msg]) := List.perm_append_comm
      exact hcomm

/-- What was accepted has been handed out or is still there, and without jamming in the
order in which it came. -/
theorem Replays.conserves {d d' : Deque Nat c} (h : Replays d log d') :
    (received log ++ d'.items).Perm (d.items ++ accepted log) ∧
      ((∀ e ∈ log, ¬ e.1.isJam) → received log ++ d'.items = d.items ++ accepted log) := by
  induction h with
  | nil => simp [accepted, received]
  | snoc o _ ih =>
    rename_i log d' _
    obtain ⟨hp, hf⟩ := o.answer_moves d'
    rw [accepted_snoc, received_snoc, List.append_assoc, ← List.append_assoc d.items]
    constructor
    · have h₁ := hp.append_left (received log)
      rw [← List.append_assoc (received log) d'.items] at h₁
      exact h₁.trans (ih.1.append_right _)
    · intro hj
      rw [hf (hj (o, (o.answer d').1) (by simp)), ← List.append_assoc,
        ih.2 fun e he => hj e (List.mem_append_left _ he)]

/-- In every state of a run the queue stores the deque that the log leads to. -/
theorem Queued.represents (h : Queued k c log s) : ∃ a, ∃ d : Deque Nat c,
    Represents False .pending s a ∧ (a.msgq k).Stores d ∧ Replays (.empty Nat c) log d := by
  induction h with
  | init hreach hg hrun =>
    obtain ⟨a, ha⟩ := hreach.represents (W := False) (fun hw => hw.elim)
    obtain ⟨b, hb, hr⟩ := ha.apply (n := 0) False.elim hg False.elim hrun
    refine ⟨b, .empty Nat c, hr, ?_, .nil⟩
    cases hb
    refine ⟨by simp [Sched.initMessageQueue], ?_, by simp [Sched.initMessageQueue, MsgQueue.content,
      window, Deque.empty]⟩
    have hc : 0 < c := hg.2.2.1
    simpa [Sched.initMessageQueue] using hc
  | message _ hg hrun ih =>
    rename_i o _ _
    obtain ⟨a, d, ha, hd, hlog⟩ := ih
    obtain ⟨hv, hst⟩ := Sched.message_stores hd o
    obtain ⟨s₁, he, hr⟩ := ha.rep.message ha.fine.shape hg
    rw [hrun] at he
    cases he
    have hf := ha.rep.fine_apply ha.fine (n := 0) False.elim hg False.elim (Sched.apply_op a k 0 o)
    refine ⟨a.message k o, (o.answer d).2, ⟨hr, hf, by simp⟩, hst, ?_⟩
    rw [hv]
    exact hlog.snoc o
  | other _ hg hu hrun ih =>
    obtain ⟨a, d, ha, hd, hlog⟩ := ih
    obtain ⟨b, hb, hr⟩ := ha.apply False.elim hg False.elim hrun
    refine ⟨b, d, ⟨hr.rep, hr.fine, by simp⟩, ?_, hlog⟩
    rwa [Sched.apply_msgq hu hb]
  | locks _ hrun ih =>
    obtain ⟨a, d, ha, hd, hlog⟩ := ih
    obtain ⟨b, hb, hr⟩ := ha.locks hrun
    refine ⟨b, d, ⟨hr.rep, hr.fine, by simp⟩, ?_, hlog⟩
    rwa [Sched.processPendingLocks_msgq hb]

/-- The thread waits in the queue. -/
def St.asleep (s : St) (t : Addr) (q : QueueAddr) : Prop :=
  (s.thr t).state = .waiting ∧ t ∈ s.members q

/-- A message queue is a bounded deque: the replies so far are those of the deque, its
items are the content, and the next call, whichever it is, returns, answers and changes
the content as the deque does. It fails exactly when the deque is full or empty; then a
blocking call puts its caller to sleep, and one that does not block changes nothing. -/
theorem queued_deque (h : Queued k c log s) : ∃ d : Deque Nat c,
    (s.msgq k).content = d.items ∧ Replays (.empty Nat c) log d ∧
    (received log ++ d.items).Perm (accepted log) ∧
    ((∀ e ∈ log, ¬ e.1.isJam) → received log ++ d.items = accepted log) ∧
    ∀ o : Message, (o.op k).Guarded s → ∃ s', o.exec k s = .ok ((o.answer d).1, s') ∧
      (s'.msgq k).content = (o.answer d).2.items ∧
      ((o.answer d).1 = .failed ↔ o.Refused d) ∧
      (o.Refused d → (s'.msgq k).content = (s.msgq k).content) ∧
      (s.Running → (s'.asleep s.currentThread (o.waitQueue k) ↔ o.Refused d ∧ blocks o.flags)) ∧
      (o.Refused d → ¬ blocks o.flags → s' = s) := by
  obtain ⟨a, d, ha, hd, hlog⟩ := h.represents
  have hs : (s.msgq k).Stores d := by rwa [ha.rep.msgq]
  refine ⟨d, hs.content, hlog, hlog.conserves.1, hlog.conserves.2, ?_⟩
  intro o hg
  obtain ⟨hv, hst⟩ := Sched.message_stores hd o
  obtain ⟨s', he, hr⟩ := ha.rep.message ha.fine.shape hg
  have hf := ha.rep.fine_apply ha.fine (n := 0) False.elim hg False.elim (Sched.apply_op a k 0 o)
  have hcontent : (s'.msgq k).content = (o.answer d).2.items := by
    rw [hr.msgq]
    exact hst.content
  refine ⟨s', by rw [he, hv], hcontent, o.failed_iff d, ?_, ?_, ?_⟩
  · intro href
    rw [hcontent, Message.answer_refused href, hs.content]
  · intro hrun
    have hsl := ha.fine.shape.message_sleeps (o := o) hd (ha.rep.running.mp hrun)
    rw [← hsl, St.asleep, hr.members hf.shape, ha.rep.current, ← hr.tcb]
  · intro href hb
    have hx := Message.exec_refused hs href hb
    rw [hx] at he
    exact (Prod.mk.inj (Except.ok.inj he)).2.symm

section Trial

/-- Calls on a queue one after the other; nothing if one is not allowed or fails. -/
def messageTrial (k : Nat) (s : St) (log : List (Message × Reply)) :
    List Message → Option (List (Message × Reply) × St)
  | [] => some (log, s)
  | o :: os =>
    if (o.op k).Guarded s then
      match o.exec k s with
      | .ok (r, s') => messageTrial k s' (log ++ [(o, r)]) os
      | .error _ => none
    else none

/-- The calls on a queue of capacity `c` in a fresh system. -/
def queueTrial (k c : Nat) (os : List Message) : Option (List (Message × Reply) × St) :=
  match bootTrial AnyCall 1 [] with
  | none => none
  | some s =>
    if (Op.initMessageQueue k c).Guarded s then
      match portOSInitMessageQueue k c s with
      | .ok (_, s') => messageTrial k s' [] os
      | .error _ => none
    else none

theorem Queued.trial {os : List Message} {p : List (Message × Reply) × St} (h : Queued k c log s)
    (ht : messageTrial k s log os = some p) : Queued k c p.1 p.2 := by
  induction os generalizing s log with
  | nil =>
    cases ht
    exact h
  | cons o os ih =>
    rw [messageTrial] at ht
    split at ht
    · rename_i hg
      split at ht
      · rename_i r s' he
        exact ih (h.message hg he) ht
      · cases ht
    · cases ht

theorem queued_queueTrial {os : List Message} {p : List (Message × Reply) × St}
    (ht : queueTrial k c os = some p) : Queued k c p.1 p.2 := by
  unfold queueTrial at ht
  split at ht
  · cases ht
  · rename_i s hs
    split at ht
    · rename_i hg
      split at ht
      · rename_i v s' he
        exact (Queued.init (reached_bootTrial hs) hg he).trial ht
      · cases ht
    · cases ht

/-- The start index wraps both ways, and the refused sender is left asleep. -/
theorem wrapped_deque : ∃ s, ∃ d : Deque Nat 2, Queued 0 2
      [(.jam 7 0, .done), (.send 8 0, .done), (.receive 0, .got 7), (.send 9 0, .done), (.send 5 1, .failed)] s ∧
    (s.msgq 0).content = d.items ∧ d.items = [8, 9] ∧ (s.thr 1).state = .waiting := by
  have htrial : (queueTrial 0 2 [.jam 7 0, .send 8 0, .receive 0, .send 9 0, .send 5 1]).any (fun p =>
      p.1 = [(.jam 7 0, .done), (.send 8 0, .done), (.receive 0, .got 7), (.send 9 0, .done),
        (.send 5 1, .failed)] ∧ (p.2.msgq 0).content = [8, 9] ∧ (p.2.thr 1).state = .waiting) = true := by
    decide +kernel
  obtain ⟨⟨log, s⟩, ht, hp⟩ := (Option.any_eq_true _ _).mp htrial
  simp only [decide_eq_true_eq] at hp
  obtain ⟨rfl, hc, hw⟩ := hp
  have hq := queued_queueTrial ht
  obtain ⟨d, hd, _⟩ := queued_deque hq
  exact ⟨s, d, hq, hd, hd.symm.trans hc, hw⟩

end Trial

end SdkPort.OSThread
