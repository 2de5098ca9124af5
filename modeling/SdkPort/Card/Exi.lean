import Mathlib.Data.List.GetD
import Mathlib.Tactic.IntervalCases

/-!
# A channel of the external interface

`EXI.c`: a channel is locked, a device is selected, and bytes move through the immediate
register or by DMA. The port watches immediate writes for the commands of a memory card.
The answers of a device to probes and DMA requests are given from outside.
-/
namespace SdkPort.Card

def EXI_READ : Nat := 0
def EXI_WRITE : Nat := 1

/-- A deselected channel has no transfer under way. -/
inductive Line where
  | deselected | idle
  | imm (length : Nat)
  | dma
  deriving DecidableEq, Repr

namespace Line

def selected : Line → Bool
  | deselected => false
  | _ => true

def busy : Line → Bool
  | imm _ | dma => true
  | _ => false

end Line

/-- What a DMA request does to memory, and whether it succeeds. It is given the number of
requests before it, the address on the device, the buffer, the length and the direction. -/
abbrev DmaHook := Nat → Nat → Nat → Nat → Nat → (Nat → UInt8) → Bool × (Nat → UInt8)

/-- The state of a channel, and what the device on it answers. -/
structure Exi where
  line : Line
  locked : Bool
  attached : Bool
  dev : Nat
  imm : Nat
  addr : Nat
  has_addr : Bool
  pending_status_read : Bool
  card_status : UInt8
  probeex_ret : Nat → Int
  probes : Nat
  getid_ok : Bool
  id : Nat
  attach_ok : Bool
  dma_hook : Option DmaHook
  dmas : Nat

def EXILock (e : Exi) (device : Nat) : Bool × Exi :=
  if e.locked then (false, e) else (true, { e with dev := device, locked := true })

def EXIUnlock (e : Exi) : Bool × Exi :=
  if e.line.busy then (false, e) else (true, { e with locked := false })

def EXISelect (e : Exi) (device : Nat) : Bool × Exi :=
  if ¬ e.locked then (false, e)
  else if e.line.selected then (false, e)
  else (true, { e with dev := device, line := .idle })

def EXIDeselect (e : Exi) : Bool × Exi :=
  if ¬ e.line.selected then (false, e)
  else if e.line.busy then (false, e)
  else (true, { e with line := .deselected })

/-- Up to four bytes in the immediate register, the first one on top. -/
def packImm (b : List UInt8) : Nat :=
  (b.getD 0 0).toNat * 2 ^ 24 + (b.getD 1 0).toNat * 2 ^ 16 + (b.getD 2 0).toNat * 2 ^ 8 + (b.getD 3 0).toNat

def unpackImm (data length : Nat) : List UInt8 :=
  (List.range length).map fun i => UInt8.ofNat (data / 2 ^ ((3 - i) * 8))

/-- The status commands: 0x83 asks for the status, 0x89 clears its error bits. -/
def statusCommand (e : Exi) (cmd : UInt8) : Exi :=
  if cmd = 0x83 then { e with pending_status_read := true }
  else if cmd = 0x89 then { e with pending_status_read := false, card_status := e.card_status &&& ~~~0x18 }
  else e

def EXIImm (e : Exi) (buffer : List UInt8) (type : Nat) : Bool × Exi :=
  if buffer.length = 0 ∨ 4 < buffer.length then (false, e)
  else if ¬ e.line.selected then (false, e)
  else if e.line.busy then (false, e)
  else
    let e := { e with line := .imm buffer.length }
    if type = EXI_READ then
      if buffer.length = 1 ∧ e.dev = 0 ∧ e.pending_status_read then
        (true, { e with pending_status_read := false, imm := e.card_status.toNat * 2 ^ 24 })
      else (true, e)
    else
      let e := { e with imm := packImm buffer }
      (true, if e.dev = 0 then statusCommand e (buffer.headD 0) else e)

/-- The result, and the bytes the completion puts into the buffer of the transfer. -/
def EXISync (e : Exi) : (Bool × List UInt8) × Exi :=
  match e.line with
  | .imm length => ((true, unpackImm e.imm length), { e with line := .idle })
  | .dma => ((true, []), { e with line := .idle })
  | _ => ((true, []), e)

/-- The address in a command packet. -/
def commandAddr (b₁ b₂ b₃ b₄ : UInt8) : Nat :=
  b₁.toNat % 2 ^ 7 * 2 ^ 17 + b₂.toNat * 2 ^ 9 + b₃.toNat % 2 ^ 2 * 2 ^ 7 + b₄.toNat % 2 ^ 7

/-- The address of a read or write command at the front of what is written. -/
def captured (buffer : List UInt8) : Option Nat :=
  match buffer with
  | b₀ :: b₁ :: b₂ :: b₃ :: b₄ :: _ =>
    if b₀ = 0x52 ∨ b₀ = 0xF2 ∨ b₀ = 0xF1 then some (commandAddr b₁ b₂ b₃ b₄) else none
  | _ => none

def capture (e : Exi) (buffer : List UInt8) : Exi :=
  match captured buffer with
  | some addr => { e with addr := addr, has_addr := true }
  | none => e

/-- The transfers of at most four bytes that move a buffer. -/
def immLoop (type : Nat) : Nat → Exi → List UInt8 → (Bool × List UInt8) × Exi
  | 0, e, p => ((true, p), e)
  | n + 1, e, p =>
    if p = [] then ((true, p), e)
    else
      match EXIImm e (p.take 4) type with
      | (false, e) => ((false, p), e)
      | (true, e) =>
        let ((ok, back), e) := EXISync e
        if ok then
          let ((ok, rest), e) := immLoop type n e (p.drop 4)
          ((ok, back ++ rest), e)
        else ((false, p), e)

/-- The result and what is in the buffer afterwards. -/
def EXIImmEx (e : Exi) (buffer : List UInt8) (type : Nat) : (Bool × List UInt8) × Exi :=
  immLoop type buffer.length (if type ≠ EXI_READ then capture e buffer else e) buffer

def EXIProbe (e : Exi) : Bool × Exi := (0 < e.probeex_ret e.probes, { e with probes := e.probes + 1 })

def EXIAttach (e : Exi) : Bool × Exi :=
  if e.attach_ok then (true, { e with attached := true }) else (false, e)

def EXIDetach (e : Exi) : Exi := { e with attached := false }

def EXIGetID (e : Exi) : Option Nat := if e.getid_ok then some e.id else none

/-- What transfers leave as it is. -/
structure Exi.Kept (e e' : Exi) : Prop where
  locked : e'.locked = e.locked
  attached : e'.attached = e.attached
  dev : e'.dev = e.dev
  probeex_ret : e'.probeex_ret = e.probeex_ret
  probes : e'.probes = e.probes
  dma_hook : e'.dma_hook = e.dma_hook
  dmas : e'.dmas = e.dmas

namespace Exi.Kept

variable {e e' e'' : Exi}

theorem refl (e : Exi) : Kept e e := ⟨rfl, rfl, rfl, rfl, rfl, rfl, rfl⟩

theorem trans (h : Kept e e') (h' : Kept e' e'') : Kept e e'' :=
  ⟨h'.locked.trans h.locked, h'.attached.trans h.attached, h'.dev.trans h.dev,
    h'.probeex_ret.trans h.probeex_ret, h'.probes.trans h.probes, h'.dma_hook.trans h.dma_hook,
    h'.dmas.trans h.dmas⟩

end Exi.Kept

variable {e : Exi} {b buffer : List UInt8} {n : Nat}

/-- The register gives back what was put into it. -/
theorem unpackImm_packImm (h : b.length ≤ 4) : unpackImm (packImm b) b.length = b := by
  have hbyte : ∀ i, i < 4 → UInt8.ofNat (packImm b / 2 ^ ((3 - i) * 8)) = b.getD i 0 := by
    intro i hi
    have h0 := (b.getD 0 0).toNat_lt
    have h1 := (b.getD 1 0).toNat_lt
    have h2 := (b.getD 2 0).toNat_lt
    have h3 := (b.getD 3 0).toNat_lt
    apply UInt8.toNat_inj.mp
    rw [UInt8.toNat_ofNat', packImm]
    interval_cases i <;> omega
  apply List.ext_getElem
  · simp [unpackImm]
  · intro i _ hi
    rw [← List.getD_eq_getElem _ 0 hi, ← hbyte i (by omega)]
    simp [unpackImm]

/-- A write of at most four bytes starts a transfer and nothing else. -/
theorem EXIImm_write (buffer : List UInt8) (hidle : e.line = .idle) (h0 : buffer ≠ []) (h4 : buffer.length ≤ 4) :
    ∃ e', EXIImm e buffer EXI_WRITE = (true, e') ∧ e'.line = .imm buffer.length ∧ e'.imm = packImm buffer ∧
      e'.addr = e.addr ∧ e'.has_addr = e.has_addr ∧ e.Kept e' := by
  have hlen : buffer.length ≠ 0 := fun h => h0 (List.eq_nil_of_length_eq_zero h)
  rw [EXIImm, if_neg (by omega), if_neg (by rw [hidle]; decide), if_neg (by rw [hidle]; decide)]
  refine ⟨_, rfl, ?_⟩
  dsimp only
  unfold statusCommand
  split
  · split
    · exact ⟨rfl, rfl, rfl, rfl, rfl, rfl, rfl, rfl, rfl, rfl, rfl⟩
    · split
      · exact ⟨rfl, rfl, rfl, rfl, rfl, rfl, rfl, rfl, rfl, rfl, rfl⟩
      · exact ⟨rfl, rfl, rfl, rfl, rfl, rfl, rfl, rfl, rfl, rfl, rfl⟩
  · exact ⟨rfl, rfl, rfl, rfl, rfl, rfl, rfl, rfl, rfl, rfl, rfl⟩

/-- Any number of bytes goes out unchanged. -/
theorem immLoop_write (hidle : e.line = .idle) (hn : buffer.length ≤ n) :
    ∃ e', immLoop EXI_WRITE n e buffer = ((true, buffer), e') ∧ e'.line = .idle ∧ e'.addr = e.addr ∧
      e'.has_addr = e.has_addr ∧ e.Kept e' := by
  induction n generalizing e buffer with
  | zero =>
    have hnil : buffer = [] := List.eq_nil_of_length_eq_zero (by omega)
    exact ⟨e, by rw [hnil, immLoop], hidle, rfl, rfl, .refl e⟩
  | succ n ih =>
    by_cases hnil : buffer = []
    · exact ⟨e, by rw [immLoop, if_pos hnil], hidle, rfl, rfl, .refl e⟩
    · have hlen : buffer.length ≠ 0 := fun h => hnil (List.eq_nil_of_length_eq_zero h)
      have htake : (buffer.take 4).length ≤ 4 := by
        rw [List.length_take]
        omega
      obtain ⟨e₁, hr, hline, himm, haddr, hhas, hk⟩ := EXIImm_write (buffer.take 4) hidle (by simp [hnil])
        htake
      have hsync : EXISync e₁ = ((true, buffer.take 4), { e₁ with line := .idle }) := by
        rw [EXISync, hline]
        dsimp only
        rw [himm, unpackImm_packImm htake]
      obtain ⟨e₂, hr₂, hline₂, haddr₂, hhas₂, hk₂⟩ := @ih { e₁ with line := .idle } (buffer.drop 4) rfl
        (by rw [List.length_drop]; omega)
      refine ⟨e₂, ?_, hline₂, haddr₂.trans haddr, hhas₂.trans hhas, hk.trans ?_⟩
      · rw [immLoop, if_neg hnil, hr]
        dsimp only
        rw [hsync]
        dsimp only
        rw [if_pos rfl, hr₂, List.take_append_drop]
      · exact ⟨hk₂.locked, hk₂.attached, hk₂.dev, hk₂.probeex_ret, hk₂.probes, hk₂.dma_hook, hk₂.dmas⟩

theorem capture_kept (e : Exi) (buffer : List UInt8) :
    (capture e buffer).line = e.line ∧ (capture e buffer).addr = (captured buffer).getD e.addr ∧
      (capture e buffer).has_addr = ((captured buffer).isSome || e.has_addr) ∧ e.Kept (capture e buffer) := by
  unfold capture
  cases captured buffer with
  | none => exact ⟨rfl, rfl, rfl, .refl e⟩
  | some addr => exact ⟨rfl, rfl, rfl, ⟨rfl, rfl, rfl, rfl, rfl, rfl, rfl⟩⟩

/-- Immediate writes go out unchanged; the address of what looks like a command is kept. -/
theorem EXIImmEx_write (hidle : e.line = .idle) (buffer : List UInt8) :
    ∃ e', EXIImmEx e buffer EXI_WRITE = ((true, buffer), e') ∧ e'.line = .idle ∧
      e'.addr = (captured buffer).getD e.addr ∧
      e'.has_addr = ((captured buffer).isSome || e.has_addr) ∧ e.Kept e' := by
  obtain ⟨hline, haddr, hhas, hk⟩ := capture_kept e buffer
  obtain ⟨e', hr, hline', haddr', hhas', hk'⟩ := immLoop_write (hline.trans hidle) (Nat.le_refl buffer.length)
  exact ⟨e', by rw [EXIImmEx, if_pos (by decide), hr], hline', haddr'.trans haddr, hhas'.trans hhas, hk.trans hk'⟩

end SdkPort.Card
