import SdkPort.PAD.Pad
import SdkPort.SI.SiRuns

/-!
# Settings of controllers

The specification, the commands of the motors and the channels to recalibrate are what the latest call
gave them, through any calls and wherever the page lies. The module is initialised once.
-/
namespace SdkPort.PAD

open Gc (GcMem)
open State State.SdkState
open Function (update update_self update_of_ne)

inductive PadCall where
  | PADInit
  | PADSetSpec (spec : BitVec 32)
  | PADRead
  | PADClamp (status : Fin 4 → PADStatus)
  | PADReset (mask : BitVec 32)
  | PADRecalibrate (mask : BitVec 32)
  | PADControlMotor (chan : Int) (command : BitVec 32)

def execPad (p : Pad) : PadCall → Pad
  | .PADInit => (PADInit p).2
  | .PADSetSpec spec => PADSetSpec p spec
  | .PADRead => (PADRead p).2.2
  | .PADClamp status => (PADClamp p status).2
  | .PADReset mask => (PADReset p mask).2
  | .PADRecalibrate mask => (PADRecalibrate p mask).2
  | .PADControlMotor chan command => PADControlMotor p chan command

/-- What was set, and whether initialisation asks for a recalibration that is read again. -/
structure Settings where
  ready : Bool
  registered : BitVec 32
  spec : Option (BitVec 32)
  motor : Nat → BitVec 32
  recalibrate : BitVec 32
  fix : Bool

/-- All channels are asked for where initialisation fixes them. -/
def Settings.call (a : Settings) : PadCall → Settings
  | .PADInit =>
    if a.ready then a
    else { a with
      ready := true
      registered := a.registered + 1
      recalibrate := if a.fix then 0xF0000000 else a.recalibrate }
  | .PADSetSpec spec => { a with spec := some spec }
  | .PADRecalibrate mask => { a with recalibrate := mask }
  | .PADControlMotor chan command =>
    if chan < 0 ∨ 4 ≤ chan then a else { a with motor := update a.motor chan.toNat command }
  | _ => a

/-- The words below the page that the game reads. -/
def retail (m : GcMem) (spec : BitVec 32) : Prop :=
  m.Maps PAD_SPEC_ADDR (PAD_PADSPEC_SHADOW_ADDR + 4) →
    m.load PAD_PADSPEC_SHADOW_ADDR = 0 ∧ m.load PAD_SPEC_ADDR = spec.toNat ∧
      m.load PAD_MAKE_STATUS_ADDR = (makeStatus spec).2

/-- The words and the globals show the settings. Until a specification is set it is 0. -/
structure Keeps (p : Pad) (a : Settings) : Prop where
  ready : decide (p.sdk.value GC_SDK_OFF_PAD_INITIALIZED ≠ 0) = a.ready
  registered : p.registerResetCalls = a.registered
  spec : PADGetSpec p = a.spec.getD 0
  specWord : p.sdk.value GC_SDK_OFF_PAD_SPEC = (a.spec.getD 0).toNat
  kind : p.sdk.value GC_SDK_OFF_PAD_MAKE_STATUS_KIND = (makeStatus (a.spec.getD 0)).1
  retail : ∀ spec ∈ a.spec, retail p.sdk.mem spec
  motor : ∀ chan < 4, p.sdk.value (GC_SDK_OFF_PAD_MOTOR_CMD_BASE + chan * 4) = (a.motor chan).toNat
  recalibrate : p.sdk.value GC_SDK_OFF_PAD_RECALIBRATE_BITS = a.recalibrate.toNat
  fix : decide (p.fixBits ≠ 0 ∧ p.sdk.mapped GC_SDK_OFF_PAD_RECALIBRATE_BITS = false) = a.fix

variable {p : Pad} {a : Settings} {s s' : SdkState} {m : GcMem} {off : Nat}

/-! ### Other words -/

def settingWords : List Nat :=
  [GC_SDK_OFF_PAD_INITIALIZED, GC_SDK_OFF_PAD_SPEC, GC_SDK_OFF_PAD_MAKE_STATUS_KIND, GC_SDK_OFF_PAD_RECALIBRATE_BITS,
    GC_SDK_OFF_PAD_MOTOR_CMD_BASE, GC_SDK_OFF_PAD_MOTOR_CMD_BASE + 4, GC_SDK_OFF_PAD_MOTOR_CMD_BASE + 8,
    GC_SDK_OFF_PAD_MOTOR_CMD_BASE + 12]

theorem motor_setting : ∀ chan < 4, GC_SDK_OFF_PAD_MOTOR_CMD_BASE + chan * 4 ∈ settingWords := by decide

/-- The words of the settings read as before, and nothing beside the page is stored. -/
structure Spares (s s' : SdkState) : Prop where
  value : ∀ x ∈ settingWords, s'.value x = s.value x
  spec : s'.mirror GC_SDK_OFF_PAD_SPEC = s.mirror GC_SDK_OFF_PAD_SPEC
  page : PageOnly s s'

/-- A word of the page that is none of the settings. -/
def Beside (off : Nat) : Prop := off + 4 ≤ 0x2000 ∧ ∀ x ∈ settingWords, off + 4 ≤ x ∨ x + 4 ≤ off

instance : Decidable (Beside off) := inferInstanceAs (Decidable (_ ∧ _))

theorem Spares.refl (s : SdkState) : Spares s s := ⟨fun _ _ => rfl, rfl, .refl s⟩

section
variable (h : Spares s s')
include h

theorem Spares.storeMapped (v : Nat) (ho : Beside off) : Spares s (s'.storeMapped off v) where
  value x hx := (value_storeMapped_other (ho.2 x hx)).trans (h.value x hx)
  spec := by rw [storeMapped_mirror, h.spec]
  page := h.page.storeMapped v ho.1

theorem Spares.storeMirror (v : Nat) (ho : Beside off) : Spares s (s'.storeMirror off v) where
  value x hx := (value_storeMirror_other (ho.2 x hx)).trans (h.value x hx)
  spec := by
    have hx := ho.2 GC_SDK_OFF_PAD_SPEC (by decide)
    rw [storeMirror_mirror, update_of_ne (by omega), h.spec]
  page := h.page.storeMirror v ho.1

/-- A word whose global was read from it may be stored again. -/
theorem Spares.storeKept (hk : s'.mirror off = BitVec.ofNat 32 (s.value off)) (hne : off ≠ GC_SDK_OFF_PAD_SPEC)
    (ho : off % 4 = 0 ∧ off + 4 ≤ 0x2000) : Spares s (s'.storeMirror off (s'.mirror off).toNat) where
  value x hx := by
    have hx4 : ∀ x ∈ settingWords, x % 4 = 0 := by decide
    rw [hk, BitVec.toNat_ofNat, Nat.mod_eq_of_lt (s.value_lt off), value_storeMirror (s.value_lt off) ho.1 (hx4 x hx)]
    by_cases he : x = off
    · rw [he, update_self]
    · rw [update_of_ne he, h.value x hx]
  spec := by rw [storeMirror_mirror, update_of_ne hne.symm, h.spec]
  page := h.page.storeMirror _ ho.2

theorem Spares.countMapped (ho : Beside off) : Spares s (s'.countMapped off) := h.storeMapped _ ho

theorem Spares.refresh (ho : off ≠ GC_SDK_OFF_PAD_SPEC) : Spares s (s'.refresh off).2 where
  value x hx := (value_refresh s' off x).trans (h.value x hx)
  spec := (refresh_mirror_other s' ho.symm).trans h.spec
  page := h.page.refresh off

theorem Spares.setMirror (v : BitVec 32) (ho : Beside off) : Spares s (setMirror s' off v) where
  value x hx := by
    have hne := ho.2 x hx
    rw [PAD.setMirror, value_mirror, update_of_ne (by omega)]
    exact h.value x hx
  spec := by
    have hx := ho.2 GC_SDK_OFF_PAD_SPEC (by decide)
    have hne : GC_SDK_OFF_PAD_SPEC ≠ off := by omega
    exact (update_of_ne hne v s'.mirror).trans h.spec
  page := ⟨h.page.base, h.page.size, h.page.outside⟩

theorem Spares.disable : Spares s s'.OSDisableInterrupts.2 :=
  (h.countMapped (by decide)).storeMirror _ (by decide)

theorem Spares.restore (level : Bool) : Spares s (s'.OSRestoreInterrupts level).2 :=
  (h.countMapped (by decide)).storeMirror _ (by decide)

theorem Spares.setXY (line count : Nat) : Spares s (SI.SISetXY s' line count) := by
  simp only [SI.SISetXY, store_eq_storeMapped]
  exact ((h.storeMapped _ (by decide)).storeMapped _ (by decide)).storeMapped _ (by decide)

theorem Spares.refreshRate : Spares s (SI.SIRefreshSamplingRate s') := by
  have hrate : Beside SI.GC_SDK_OFF_SI_SAMPLING_RATE := by decide
  have hr := h.refresh (by decide : SI.GC_SDK_OFF_SI_SAMPLING_RATE ≠ GC_SDK_OFF_PAD_SPEC)
  have hset := hr.disable.storeMirror (min (s'.refresh SI.GC_SDK_OFF_SI_SAMPLING_RATE).1 11) hrate
  have hformat := hset.refresh (by decide : VI.GC_SDK_OFF_VI_TV_FORMAT ≠ GC_SDK_OFF_PAD_SPEC)
  exact (hformat.setXY _ _).restore _

theorem Spares.mapped (off : Nat) : s'.mapped off = s.mapped off := by
  simp only [SdkState.mapped, GcMem.ptr, h.page.base, h.page.size]

end

/-- A reset reads the channels to recalibrate into their global and stores them again. -/
theorem spares_reset (p : Pad) (mask : BitVec 32) : Spares p.sdk (PADReset p mask).2.sdk := by
  have hs := Spares.refl p.sdk
  have hs := hs.refresh (by decide : GC_SDK_OFF_PAD_RESETTING_BITS ≠ GC_SDK_OFF_PAD_SPEC)
  have hs := hs.refresh (by decide : GC_SDK_OFF_PAD_RESETTING_CHAN ≠ GC_SDK_OFF_PAD_SPEC)
  have hs := hs.refresh (by decide : GC_SDK_OFF_PAD_RECALIBRATE_BITS ≠ GC_SDK_OFF_PAD_SPEC)
  have hs := hs.refresh (by decide : GC_SDK_OFF_PAD_RESET_CB_PTR ≠ GC_SDK_OFF_PAD_SPEC)
  have hs := (hs.storeMirror mask.toNat (by decide : Beside GC_SDK_OFF_PAD_RESET_MASK)).countMapped
    (by decide : Beside GC_SDK_OFF_PAD_RESET_CALLS)
  unfold PADReset
  dsimp only
  refine Spares.storeMirror (Spares.storeKept ((hs.storeMirror _ (by decide)).storeMirror _ (by decide)) ?_ (by decide)
    (by decide)) _ (by decide)
  simp (disch := decide) only [countMapped, storeMapped_mirror, storeMirror_mirror, update_of_ne, refresh_mirror_self,
    refresh_mirror_other, value_refresh]

/-! ### Calls -/

theorem makeStatus_lt (spec : BitVec 32) : (makeStatus spec).1 < 2 ^ 32 ∧ (makeStatus spec).2 < 2 ^ 32 := by
  unfold makeStatus
  split
  · decide
  split <;> decide

/-- The three words below the page do not reach into it. -/
theorem PADSetSpec_value (p : Pad) (spec : BitVec 32) (ho : off + 4 ≤ 0x2000) : (PADSetSpec p spec).sdk.value off =
    ((p.sdk.storeMirror GC_SDK_OFF_PAD_SPEC spec.toNat).storeMirror GC_SDK_OFF_PAD_MAKE_STATUS_KIND
      (makeStatus spec).1).value off := by
  apply value_samePage _ ho
  apply samePage_store _ _ (by decide)
  apply samePage_store _ _ (by decide)
  apply samePage_store _ _ (by decide)
  exact ⟨rfl, rfl, fun _ _ _ _ => rfl⟩

theorem PADSetSpec_base (p : Pad) (spec : BitVec 32) : (PADSetSpec p spec).sdk.mem.base = p.sdk.mem.base := by
  simp only [PADSetSpec, GcMem.store_base, storeMirror_base]

theorem PADSetSpec_size (p : Pad) (spec : BitVec 32) : (PADSetSpec p spec).sdk.mem.size = p.sdk.mem.size := by
  simp only [PADSetSpec, GcMem.store_size, storeMirror_size]

theorem PADSetSpec_retail (p : Pad) (spec : BitVec 32) : retail (PADSetSpec p spec).sdk.mem spec := by
  intro hm
  rw [GcMem.Maps, PADSetSpec_base, PADSetSpec_size] at hm
  have horder : PAD_SPEC_ADDR + 4 = PAD_MAKE_STATUS_ADDR ∧ PAD_MAKE_STATUS_ADDR + 4 ≤ PAD_PADSPEC_SHADOW_ADDR := by decide
  obtain ⟨hlo, hhi⟩ := hm
  have hlast : ∀ (m : GcMem) (x v : Nat), m.base = p.sdk.mem.base → m.size = p.sdk.mem.size → PAD_SPEC_ADDR ≤ x →
      x ≤ PAD_PADSPEC_SHADOW_ADDR → v < 2 ^ 32 → (m.store x v).load x = v := by
    intro m x v hb hs h₁ h₂ hv
    apply GcMem.load_store_self _ hv
    rw [GcMem.Maps, hb, hs]
    omega
  refine ⟨?_, ?_, ?_⟩
  · rw [PADSetSpec, GcMem.load_store_other (by decide), GcMem.load_store_other (by decide)]
    exact hlast _ _ _ (by simp) (by simp) (by decide) (Nat.le_refl _) (by decide)
  · rw [PADSetSpec, GcMem.load_store_other (by decide)]
    exact hlast _ _ _ (by simp) (by simp) (Nat.le_refl _) (by decide) spec.isLt
  · exact hlast _ _ _ (by simp) (by simp) (by decide) (by decide) (makeStatus_lt spec).2

theorem retail_page {spec : BitVec 32} (h : retail s.mem spec) (hp : PageOnly s s') : retail s'.mem spec := by
  intro hm
  rw [hp.outside _ (by decide), hp.outside _ (by decide), hp.outside _ (by decide)]
  apply h
  rwa [GcMem.Maps, ← hp.base, ← hp.size]

section
variable (h : Keeps p a)
include h

/-- What leaves the words leaves the settings. -/
theorem Keeps.spares (hs : Spares p.sdk s) : Keeps { p with sdk := s } a where
  ready := by rw [hs.value _ (by decide), h.ready]
  registered := h.registered
  spec := hs.spec.trans h.spec
  specWord := (hs.value _ (by decide)).trans h.specWord
  kind := (hs.value _ (by decide)).trans h.kind
  retail spec hspec := retail_page (h.retail spec hspec) hs.page
  motor chan hc := (hs.value _ (motor_setting chan hc)).trans (h.motor chan hc)
  recalibrate := (hs.value _ (by decide)).trans h.recalibrate
  fix := by
    dsimp only
    rw [hs.mapped, h.fix]

theorem Keeps.setSpec (spec : BitVec 32) : Keeps (PADSetSpec p spec) { a with spec := some spec } where
  ready := by
    rw [PADSetSpec_value _ _ (by decide), value_storeMirror_other (by decide), value_storeMirror_other (by decide), h.ready]
  registered := h.registered
  spec := by
    simp only [PADGetSpec, PADSetSpec, storeMirror_mirror, Option.getD_some]
    rw [update_of_ne (by decide), update_self, BitVec.ofNat_toNat, BitVec.setWidth_eq]
  specWord := by
    rw [PADSetSpec_value _ _ (by decide), value_storeMirror_other (by decide), value_storeMirror_self spec.isLt,
      Option.getD_some]
  kind := by
    rw [PADSetSpec_value _ _ (by decide), value_storeMirror_self (makeStatus_lt spec).1, Option.getD_some]
  retail := by
    rintro _ ⟨⟩
    exact PADSetSpec_retail p spec
  motor chan hc := by
    have hoff : GC_SDK_OFF_PAD_MAKE_STATUS_KIND + 4 ≤ GC_SDK_OFF_PAD_MOTOR_CMD_BASE ∧
      GC_SDK_OFF_PAD_SPEC + 4 ≤ GC_SDK_OFF_PAD_MOTOR_CMD_BASE ∧ GC_SDK_OFF_PAD_MOTOR_CMD_BASE + 16 ≤ 0x2000 := by decide
    rw [PADSetSpec_value _ _ (by omega), value_storeMirror_other (by omega), value_storeMirror_other (by omega),
      h.motor chan hc]
  recalibrate := by
    rw [PADSetSpec_value _ _ (by decide), value_storeMirror_other (by decide), value_storeMirror_other (by decide),
      h.recalibrate]
  fix := by
    rw [← h.fix]
    simp only [SdkState.mapped, GcMem.ptr, PADSetSpec_base, PADSetSpec_size]
    rfl

/-- A word of the page, not those of the specification. -/
theorem Keeps.storeWord {off v : Nat} {b : Settings} (hv : v < 2 ^ 32) (ho : off % 4 = 0 ∧ off + 4 ≤ 0x2000)
    (hs : off ≠ GC_SDK_OFF_PAD_SPEC) (hk : off ≠ GC_SDK_OFF_PAD_MAKE_STATUS_KIND)
    (hready : decide (update p.sdk.value off v GC_SDK_OFF_PAD_INITIALIZED ≠ 0) = b.ready)
    (hmotor : ∀ chan < 4, update p.sdk.value off v (GC_SDK_OFF_PAD_MOTOR_CMD_BASE + chan * 4) = (b.motor chan).toNat)
    (hrec : update p.sdk.value off v GC_SDK_OFF_PAD_RECALIBRATE_BITS = b.recalibrate.toNat)
    (hspec : b.spec = a.spec) (hreg : b.registered = a.registered) (hfix : b.fix = a.fix) :
    Keeps { p with sdk := p.sdk.storeMirror off v } b where
  ready := by rw [value_storeMirror hv ho.1 (by decide), hready]
  registered := h.registered.trans hreg.symm
  spec := by
    rw [PADGetSpec, storeMirror_mirror, update_of_ne hs.symm, hspec]
    exact h.spec
  specWord := by
    rw [value_storeMirror hv ho.1 (by decide), update_of_ne hs.symm, hspec, h.specWord]
  kind := by
    rw [value_storeMirror hv ho.1 (by decide), update_of_ne hk.symm, hspec, h.kind]
  retail spec hb := retail_page (h.retail spec (hspec ▸ hb)) ((PageOnly.refl p.sdk).storeMirror v ho.2)
  motor chan hc := by
    have hbase : GC_SDK_OFF_PAD_MOTOR_CMD_BASE % 4 = 0 := by decide
    rw [value_storeMirror hv ho.1 (by omega), hmotor chan hc]
  recalibrate := by rw [value_storeMirror hv ho.1 (by decide), hrec]
  fix := by
    dsimp only
    rw [storeMirror_mapped, h.fix, hfix]

theorem Keeps.setReady : Keeps { p with sdk := p.sdk.storeMirror GC_SDK_OFF_PAD_INITIALIZED 1 }
    { a with ready := true } := by
  refine h.storeWord (by decide) (by decide) (by decide) (by decide) ?_ ?_ ?_ rfl rfl rfl
  · rw [update_self]
    rfl
  · intro chan hc
    have hoff : GC_SDK_OFF_PAD_INITIALIZED + 4 ≤ GC_SDK_OFF_PAD_MOTOR_CMD_BASE := by decide
    rw [update_of_ne (by omega), h.motor chan hc]
  · rw [update_of_ne (by decide), h.recalibrate]

theorem Keeps.setRecalibrate (mask : BitVec 32) :
    Keeps { p with sdk := p.sdk.storeMirror GC_SDK_OFF_PAD_RECALIBRATE_BITS mask.toNat } { a with recalibrate := mask } := by
  refine h.storeWord mask.isLt (by decide) (by decide) (by decide) ?_ ?_ ?_ rfl rfl rfl
  · rw [update_of_ne (by decide), h.ready]
  · intro chan hc
    have hoff : GC_SDK_OFF_PAD_RECALIBRATE_BITS + 4 ≤ GC_SDK_OFF_PAD_MOTOR_CMD_BASE := by decide
    rw [update_of_ne (by omega), h.motor chan hc]
  · rw [update_self]

theorem Keeps.setMotor {chan : Nat} (hc : chan < 4) (command : BitVec 32) :
    Keeps { p with sdk := p.sdk.storeMirror (GC_SDK_OFF_PAD_MOTOR_CMD_BASE + chan * 4) command.toNat }
      { a with motor := update a.motor chan command } := by
  have hbase : GC_SDK_OFF_PAD_MOTOR_CMD_BASE = 0x3B0 := rfl
  have hready : GC_SDK_OFF_PAD_INITIALIZED = 0x320 := rfl
  have hspec : GC_SDK_OFF_PAD_SPEC = 0x324 := rfl
  have hkind : GC_SDK_OFF_PAD_MAKE_STATUS_KIND = 0x328 := rfl
  have hrec : GC_SDK_OFF_PAD_RECALIBRATE_BITS = 0x3A0 := rfl
  refine h.storeWord command.isLt (by omega) (by omega) (by omega) ?_ ?_ ?_ rfl rfl rfl
  · rw [update_of_ne (by omega), h.ready]
  · intro k hk
    dsimp only
    by_cases he : k = chan
    · rw [he, update_self, update_self]
    · rw [update_of_ne (by omega), update_of_ne he, h.motor k hk]
  · rw [update_of_ne (by omega), h.recalibrate]

/-- The channels that initialisation asks for are in the global alone: a page hides them. -/
theorem Keeps.setFix (hfix : p.fixBits ≠ 0) (mode : BitVec 16) :
    Keeps { p with wirelessPadFixMode := mode, sdk := setMirror p.sdk GC_SDK_OFF_PAD_RECALIBRATE_BITS 0xF0000000 }
      { a with recalibrate := if a.fix then 0xF0000000 else a.recalibrate } := by
  have hf := h.fix
  have hoff : ∀ x ∈ settingWords, x ≠ GC_SDK_OFF_PAD_RECALIBRATE_BITS →
      (setMirror p.sdk GC_SDK_OFF_PAD_RECALIBRATE_BITS 0xF0000000).value x = p.sdk.value x := fun x _ hne => by
    rw [setMirror, value_mirror, update_of_ne hne]
    rfl
  refine ⟨?_, h.registered, ?_, ?_, ?_, h.retail, fun chan hc => ?_, ?_, h.fix⟩
  · rw [hoff _ (by decide) (by decide), h.ready]
  · have hne : GC_SDK_OFF_PAD_SPEC ≠ GC_SDK_OFF_PAD_RECALIBRATE_BITS := by decide
    exact (update_of_ne hne 0xF0000000 p.sdk.mirror).trans h.spec
  · rw [hoff _ (by decide) (by decide), h.specWord]
  · rw [hoff _ (by decide) (by decide), h.kind]
  · have hbase : GC_SDK_OFF_PAD_RECALIBRATE_BITS + 4 ≤ GC_SDK_OFF_PAD_MOTOR_CMD_BASE := by decide
    rw [hoff _ (motor_setting chan hc) (by omega), h.motor chan hc]
  · dsimp only
    rw [setMirror, value_mirror, update_self, ← hf]
    cases hm : p.sdk.mapped GC_SDK_OFF_PAD_RECALIBRATE_BITS with
    | true =>
      have hr := h.recalibrate
      rw [value, loadOr, hm] at hr
      simpa using hr
    | false => rw [if_neg Bool.false_ne_true, if_pos (decide_eq_true ⟨hfix, rfl⟩)]

/-- Initialisation sets the specification again. -/
theorem Keeps.respec : Keeps (if PADGetSpec p ≠ 0 then PADSetSpec p (PADGetSpec p) else p) a := by
  split
  · rename_i hne
    rw [h.spec] at hne ⊢
    cases hs : a.spec with
    | none => exact absurd (hs ▸ rfl) hne
    | some spec =>
      have hset := h.setSpec spec
      rwa [← hs] at hset
  · exact h

/-- The counts, the probes and the mask of the resets are none of the settings. -/
theorem Keeps.finish (cmd : Nat → BitVec 32) (calls : BitVec 32) :
    Keeps { p with
      cmdProbeDevice := cmd
      siRefreshCalls := calls
      registerResetCalls := p.registerResetCalls + 1
      sdk := setMirror (SI.SIRefreshSamplingRate p.sdk) GC_SDK_OFF_PAD_RESET_MASK 0xF0000000 }
      { a with registered := a.registered + 1 } := by
  have hs := h.spares ((Spares.refl p.sdk).refreshRate.setMirror 0xF0000000 (by decide : Beside GC_SDK_OFF_PAD_RESET_MASK))
  exact ⟨hs.ready, congrArg (· + 1) h.registered, hs.spec, hs.specWord, hs.kind, hs.retail, hs.motor, hs.recalibrate, hs.fix⟩

theorem Keeps.fixed : Keeps (if p.fixBits ≠ 0 then
      { p with wirelessPadFixMode := 0, sdk := setMirror p.sdk GC_SDK_OFF_PAD_RECALIBRATE_BITS 0xF0000000 }
    else p) { a with recalibrate := if a.fix then 0xF0000000 else a.recalibrate } := by
  by_cases hfix : p.fixBits ≠ 0
  · rw [if_pos hfix]
    exact h.setFix hfix 0
  · have hf : a.fix = false := by
      rw [← h.fix, decide_eq_false_iff_not]
      exact fun hc => hfix hc.1
    rw [if_neg hfix, hf]
    exact ⟨h.ready, h.registered, h.spec, h.specWord, h.kind, h.retail, h.motor, h.recalibrate, h.fix.trans hf⟩

theorem Keeps.init : Keeps (PADInit p).2 (a.call .PADInit) := by
  have hr := h.spares ((Spares.refl p.sdk).refresh (by decide : GC_SDK_OFF_PAD_INITIALIZED ≠ GC_SDK_OFF_PAD_SPEC))
  have hword : (p.sdk.refresh GC_SDK_OFF_PAD_INITIALIZED).2.mirror GC_SDK_OFF_PAD_INITIALIZED ≠ 0 ↔ a.ready = true := by
    have hlt := p.sdk.value_lt GC_SDK_OFF_PAD_INITIALIZED
    rw [refresh_mirror_self, ← h.ready, decide_eq_true_eq, ne_eq, ← BitVec.toNat_inj, BitVec.toNat_ofNat,
      Nat.mod_eq_of_lt hlt]
    rfl
  unfold PADInit
  dsimp only
  by_cases hready : a.ready = true
  · rw [if_pos (hword.2 hready), Settings.call, if_pos hready]
    exact hr
  · rw [if_neg fun hc => hready (hword.1 hc), Settings.call, if_neg hready]
    exact hr.respec.setReady.fixed.finish _ _

theorem Keeps.call (c : PadCall) : Keeps (execPad p c) (a.call c) := by
  cases c with
  | PADInit => exact h.init
  | PADSetSpec spec => exact h.setSpec spec
  | PADRead => exact h.spares ((Spares.refl p.sdk).countMapped (by decide))
  | PADClamp status => exact h.spares ((Spares.refl p.sdk).countMapped (by decide))
  | PADReset mask =>
    have hp : (PADReset p mask).2 = { p with sdk := (PADReset p mask).2.sdk } := by
      simp only [PADReset]
    rw [execPad, hp]
    exact h.spares (spares_reset p mask)
  | PADRecalibrate mask =>
    have hcount : Spares p.sdk _ := ((Spares.refl p.sdk).storeMapped mask.toNat
      (by decide : Beside GC_SDK_OFF_PAD_RECALIBRATE_MASK)).countMapped (by decide : Beside GC_SDK_OFF_PAD_RECALIBRATE_CALLS)
    exact (h.spares hcount).setRecalibrate mask
  | PADControlMotor chan command =>
    rw [execPad, PADControlMotor, Settings.call]
    split
    · exact h
    · exact h.setMotor (by omega) command

end

end SdkPort.PAD
