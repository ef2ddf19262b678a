/-
# What a ready render snapshot says

A draw that the bridge can execute is described by the registers it reads. Here these
registers are gathered in records, one for the colour half of the snapshot and one for the
depth half, with what the bridge supports of each; the snapshot of a draw is ready exactly
if the colour half was read and is supported, and the depth half, if it is enabled and
complete, is supported too.
-/

import KajPS5.Gpu.RenderState

namespace KajPS5.Gpu

open GpuRenderSnapshot

/-! ## The registers of a draw -/

structure DrawRegisters where
  (base pitch slice view info attrib attrib2 attrib3 targetMask blend mode scissorTl : BitVec 32)
  (scissorBr xscale xoffset yscale yoffset zmin zmax depthControl primitive instances : BitVec 32)

namespace DrawRegisters

/-- Every register is present with the value of the record. -/
structure ReadFrom (d : DrawRegisters) (registers : GpuRegisters) : Prop where
  base : registers.context cbColor0Base = some d.base
  pitch : registers.context cbColor0Pitch = some d.pitch
  slice : registers.context cbColor0Slice = some d.slice
  view : registers.context cbColor0View = some d.view
  info : registers.context cbColor0Info = some d.info
  attrib : registers.context cbColor0Attrib = some d.attrib
  attrib2 : registers.context cbColor0Attrib2 = some d.attrib2
  attrib3 : registers.context cbColor0Attrib3 = some d.attrib3
  targetMask : registers.context cbTargetMask = some d.targetMask
  blend : registers.context cbBlend0Control = some d.blend
  mode : registers.context paSuScModeControl = some d.mode
  scissorTl : registers.context vportScissorTl = some d.scissorTl
  scissorBr : registers.context vportScissorBr = some d.scissorBr
  xscale : registers.context vportXScale = some d.xscale
  xoffset : registers.context (vportXScale + 1) = some d.xoffset
  yscale : registers.context (vportXScale + 2) = some d.yscale
  yoffset : registers.context (vportXScale + 3) = some d.yoffset
  zmin : registers.context vportZMin = some d.zmin
  zmax : registers.context vportZMax = some d.zmax
  depthControl : registers.context dbDepthControl = some d.depthControl
  primitive : registers.userConfig vgtPrimitiveType = some d.primitive
  instances : registers.userConfig syntheticDrawInstanceCount = some d.instances

variable (d : DrawRegisters)

def width : BitVec 32 := (d.attrib2 >>> 14 &&& 0x3fff) + 1

def height : BitVec 32 := (d.attrib2 &&& 0x3fff) + 1

def rowPitch : BitVec 64 := ((d.pitch &&& 0x7ff).setWidth 64 + 1) * 8

def primitiveType : BitVec 32 := d.primitive &&& 0x3f

/-- The snapshot of the colour half, with the depth controls. -/
def snapshot (render : GpuRenderSnapshot) (vertexCount : BitVec 32) : GpuRenderSnapshot :=
  { render with
    status := .kReady
    vertexCount
    instanceCount := d.instances
    colorBase := d.base.setWidth 64 <<< 8
    colorRowPitchBytes := d.rowPitch
    colorWidth := d.width
    colorHeight := d.height
    colorFormat := 56
    colorWriteMask := d.targetMask &&& 0xf
    primitiveType := d.primitiveType
    cullMode := d.mode &&& 3
    frontFaceClockwise := d.mode.getLsbD 2
    blendEnable := d.blend.getLsbD 30
    blendControl := d.blend
    viewportXScaleBits := d.xscale
    viewportXOffsetBits := d.xoffset
    viewportYScaleBits := d.yscale
    viewportYOffsetBits := d.yoffset
    viewportZMinBits := d.zmin
    viewportZMaxBits := d.zmax
    scissorLeft := d.scissorTl &&& 0x7fff
    scissorTop := d.scissorTl >>> 16 &&& 0x7fff
    scissorRight := d.scissorBr &&& 0x7fff
    scissorBottom := d.scissorBr >>> 16 &&& 0x7fff
    depthEnabled := d.depthControl.getLsbD 1
    depthWriteEnabled := d.depthControl.getLsbD 2
    depthCompare := d.depthControl >>> 4 &&& 7 }

/-- The values that the bridge supports: one linear RGBA8 target with one sample, basic blending
and culling, a target that its rows cover, and a scissor that is not empty. -/
structure Supported (d : DrawRegisters) (registers : GpuRegisters) : Prop where
  targetMask : d.targetMask &&& ~~~0xf = 0
  oneTarget : (registers.context (cbColor0Base + 15)).getD 0 = 0
  info : d.info >>> 2 &&& 0x1f = 10 ∧ d.info >>> 8 &&& 7 = 0 ∧ d.info >>> 11 &&& 3 = 0 ∧
    d.info.getLsbD 14 = false ∧ d.info.getLsbD 28 = false ∧ d.info.getLsbD 31 = false
  attrib : d.attrib &&& 0x1f = 0 ∧ d.attrib >>> 12 &&& 7 = 0 ∧ d.attrib >>> 15 &&& 3 = 0
  flat : d.attrib3 = 0 ∧ d.slice = 0 ∧ d.view = 0
  mode : d.mode &&& 3 ≠ 3 ∧ d.mode.getLsbD 11 = false ∧ d.mode.getLsbD 12 = false ∧
    d.mode.getLsbD 16 = false
  blend : d.blend &&& 0x1f ≤ 10 ∧ d.blend >>> 5 &&& 7 ≤ 4 ∧ d.blend >>> 8 &&& 0x1f ≤ 10 ∧
    d.blend >>> 16 &&& 0x1f ≤ 10 ∧ d.blend >>> 21 &&& 7 ≤ 4 ∧ d.blend >>> 24 &&& 0x1f ≤ 10
  primitive : d.primitiveType ≠ 0 ∧ d.primitiveType ≤ 6 ∧ d.primitiveType ≠ 5
  target : d.base ≠ 0 ∧ d.width ≠ 0 ∧ d.height ≠ 0 ∧ d.width.setWidth 64 * 4 ≤ d.rowPitch
  instances : d.instances ≠ 0
  scissor : d.scissorTl.getLsbD 31 = false ∧ d.scissorTl &&& 0x7fff < d.scissorBr &&& 0x7fff ∧
    d.scissorTl >>> 16 &&& 0x7fff < d.scissorBr >>> 16 &&& 0x7fff

end DrawRegisters

structure DepthRegisters where
  (zinfo zbase zbaseHi zsizeXy zsize : BitVec 32)

namespace DepthRegisters

structure ReadFrom (z : DepthRegisters) (registers : GpuRegisters) : Prop where
  zinfo : registers.context dbZInfo = some z.zinfo
  zbase : registers.context dbZWriteBase = some z.zbase
  zbaseHi : registers.context dbZWriteBaseHi = some z.zbaseHi
  zsizeXy : registers.context dbDepthSizeXy = some z.zsizeXy
  zsize : registers.context dbDepthSize = some z.zsize

def snapshot (z : DepthRegisters) (render : GpuRenderSnapshot) : GpuRenderSnapshot :=
  { render with
    depthBase := z.zbase.setWidth 64 <<< 8 ||| (z.zbaseHi.setWidth 64 &&& 0xff) <<< 40
    depthWidth := (z.zsizeXy &&& 0x3fff) + 1
    depthHeight := (z.zsizeXy >>> 16 &&& 0x3fff) + 1
    depthRowPitchBytes := ((z.zsize &&& 0x7ff).setWidth 64 + 1) * 8 }

/-- A linear 32-bit float surface with one sample, at an address, that its rows cover. -/
structure Supported (z : DepthRegisters) : Prop where
  zinfo : z.zinfo &&& 3 = 3 ∧ z.zinfo >>> 2 &&& 3 = 0 ∧ z.zinfo >>> 20 &&& 7 = 0 ∧
    z.zinfo.getLsbD 29 = false
  zbase : z.zbase ≠ 0
  pitch : ((z.zsizeXy &&& 0x3fff) + 1).setWidth 64 * 4 ≤ ((z.zsize &&& 0x7ff).setWidth 64 + 1) * 8

end DepthRegisters

/-! ## Reading on -/

namespace GpuRenderSnapshot

/-- The snapshot that is left, whether the reading stopped or not. -/
def outcome : Except GpuRenderSnapshot GpuRenderSnapshot → GpuRenderSnapshot
  | .ok render | .error render => render

variable {render : GpuRenderSnapshot} {map : BitVec 32 → Option (BitVec 32)}
  {register value : BitVec 32} {condition : Bool}
  {next : BitVec 32 → Except GpuRenderSnapshot GpuRenderSnapshot}
  {rest : Unit → Except GpuRenderSnapshot GpuRenderSnapshot}

theorem ok_bind : (Except.ok value >>= next) = next value := rfl

theorem readRegister_bind_of_some (h : map register = some value) :
    (render.readRegister map register >>= next) = next value := by
  rw [readRegister, h]
  rfl

theorem readRegister_bind_of_none (h : map register = none) :
    (render.readRegister map register >>= next) = .error (render.unsupported register 0) := by
  rw [readRegister, h]
  rfl

/-- The first register that is missing is named. -/
theorem named_of_readRegister (h : ∀ value, map register = some value →
      ∃ missing, outcome (next value) = render.unsupported missing 0) : ∃ missing,
    outcome (render.readRegister map register >>= next) = render.unsupported missing 0 := by
  cases hmap : map register with
  | none => exact ⟨register, by rw [readRegister_bind_of_none hmap]; rfl⟩
  | some value =>
    rw [readRegister_bind_of_some hmap]
    exact h _ hmap

/-- A snapshot that is not ready yet becomes ready only if the register is there. -/
theorem readRegister_ready_iff (hstat : render.status ≠ .kReady) :
    (outcome (render.readRegister map register >>= next)).status = .kReady ↔
      ∃ value, map register = some value ∧ (outcome (next value)).status = .kReady := by
  cases hmap : map register with
  | none =>
    rw [readRegister_bind_of_none hmap]
    exact iff_of_false hstat (by simp)
  | some value =>
    rw [readRegister_bind_of_some hmap]
    simp

theorem rejectIf_bind_of_false (h : condition = false) :
    (rejectIf condition render register value >>= rest) = rest () := by
  rw [h]
  rfl

theorem unsupported_ne_ready : GpuRenderSnapshotStatus.kUnsupported ≠ .kReady := by decide

/-- A rejection that leaves the snapshot unready did not happen. -/
theorem rejectIf_ready_iff (hstat : render.status ≠ .kReady) :
    (outcome (rejectIf condition render register value >>= rest)).status = .kReady ↔
      condition = false ∧ (outcome (rest ())).status = .kReady := by
  cases condition with
  | true => exact iff_of_false hstat (by simp)
  | false => exact (and_iff_right rfl).symm

end GpuRenderSnapshot

/-! ## The colour half -/

variable {registers : GpuRegisters}

theorem snapshotDrawState_of_supported {d : DrawRegisters} (hread : d.ReadFrom registers)
    (hsupported : d.Supported registers) (render : GpuRenderSnapshot) (vertexCount : BitVec 32) :
    snapshotDrawState registers render vertexCount =
      if d.depthControl.getLsbD 1 then snapshotDepthState registers (d.snapshot render vertexCount)
      else .ok (d.snapshot render vertexCount) := by
  simp only [snapshotDrawState, readRegister, hread.base, hread.pitch, hread.slice, hread.view,
    hread.info, hread.attrib, hread.attrib2, hread.attrib3, hread.targetMask, hread.blend,
    hread.mode, hread.scissorTl, hread.scissorBr, hread.xscale, hread.xoffset, hread.yscale,
    hread.yoffset, hread.zmin, hread.zmax, hread.depthControl, hread.primitive, hread.instances,
    ok_bind]
  rw [rejectIf_bind_of_false (by simpa using hsupported.targetMask),
    rejectIf_bind_of_false (by simpa using hsupported.oneTarget),
    rejectIf_bind_of_false (by simpa [and_assoc] using hsupported.info),
    rejectIf_bind_of_false (by simpa [and_assoc, hsupported.flat] using hsupported.attrib),
    rejectIf_bind_of_false (by simpa [and_assoc] using hsupported.mode),
    rejectIf_bind_of_false (by simpa [and_assoc] using hsupported.blend),
    rejectIf_bind_of_false (by
      simpa [and_assoc, DrawRegisters.primitiveType] using hsupported.primitive),
    rejectIf_bind_of_false (by
      simpa [and_assoc, DrawRegisters.width, DrawRegisters.height, DrawRegisters.rowPitch] using
        And.intro (And.intro hsupported.target hsupported.instances) hsupported.scissor.1),
    rejectIf_bind_of_false (by simpa using hsupported.scissor.2)]
  rfl

theorem exists_of_snapshotDrawState_ready {render : GpuRenderSnapshot}
    (hstat : render.status ≠ .kReady) {vertexCount : BitVec 32}
    (h : (outcome (snapshotDrawState registers render vertexCount)).status = .kReady) :
    ∃ d : DrawRegisters, d.ReadFrom registers ∧ d.Supported registers := by
  simp only [snapshotDrawState, readRegister_ready_iff hstat, rejectIf_ready_iff hstat] at h
  obtain ⟨base, hbase, pitch, hpitch, slice, hslice, view, hview, info, hinfo, h⟩ := h
  obtain ⟨attrib, hattrib, attrib2, hattrib2, attrib3, hattrib3, targetMask, htargetMask, h⟩ := h
  obtain ⟨blend, hblend, mode, hmode, scissorTl, hscissorTl, scissorBr, hscissorBr, h⟩ := h
  obtain ⟨xscale, hxscale, xoffset, hxoffset, yscale, hyscale, yoffset, hyoffset, h⟩ := h
  obtain ⟨zmin, hzmin, zmax, hzmax, depthControl, hdepthControl, h⟩ := h
  obtain ⟨primitive, hprimitive, instances, hinstances, hmask, hone, hformat, hflat, h⟩ := h
  obtain ⟨hculling, hblending, htopology, htarget, h⟩ := h
  obtain ⟨hscissor, -⟩ := (rejectIf_ready_iff unsupported_ne_ready).mp h
  refine ⟨⟨base, pitch, slice, view, info, attrib, attrib2, attrib3, targetMask, blend, mode,
    scissorTl, scissorBr, xscale, xoffset, yscale, yoffset, zmin, zmax, depthControl, primitive,
    instances⟩, ⟨hbase, hpitch, hslice, hview, hinfo, hattrib, hattrib2, hattrib3, htargetMask,
    hblend, hmode, hscissorTl, hscissorBr, hxscale, hxoffset, hyscale, hyoffset, hzmin, hzmax,
    hdepthControl, hprimitive, hinstances⟩, ?_⟩
  simp only [Bool.or_eq_false_iff, decide_eq_false_iff_not, not_not] at hflat htarget
  exact
    { targetMask := by simpa using hmask
      oneTarget := by simpa using hone
      info := by simpa [and_assoc] using hformat
      attrib := ⟨hflat.1.1.1.1.1, hflat.1.1.1.1.2, hflat.1.1.1.2⟩
      flat := ⟨hflat.1.1.2, hflat.1.2, hflat.2⟩
      mode := by simpa [and_assoc] using hculling
      blend := by simpa [and_assoc] using hblending
      primitive := by simpa [and_assoc, DrawRegisters.primitiveType] using htopology
      target := ⟨htarget.1.1.1.1.1, htarget.1.1.1.1.2, htarget.1.1.1.2,
        BitVec.not_lt.mp htarget.1.1.2⟩
      instances := htarget.1.2
      scissor := ⟨htarget.2, by simpa using hscissor⟩ }

/-! ## The depth half -/

/-- A missing depth register is named, and nothing else changes. -/
theorem snapshotDepthState_of_missing (hmissing : ¬ ∃ z : DepthRegisters, z.ReadFrom registers)
    (render : GpuRenderSnapshot) :
    ∃ register, outcome (snapshotDepthState registers render) = render.unsupported register 0 := by
  refine named_of_readRegister fun zinfo hzinfo => named_of_readRegister fun zbase hzbase => ?_
  refine named_of_readRegister fun zbaseHi hzbaseHi => ?_
  refine named_of_readRegister fun zsizeXy hzsizeXy => named_of_readRegister fun zsize hzsize => ?_
  exact absurd ⟨⟨zinfo, zbase, zbaseHi, zsizeXy, zsize⟩,
    ⟨hzinfo, hzbase, hzbaseHi, hzsizeXy, hzsize⟩⟩ hmissing

variable {z : DepthRegisters} {action : GpuAction}

/-- Complete depth registers leave a ready snapshot only if they are supported. -/
theorem snapshotDepthState_of_ready (hread : z.ReadFrom registers) {render : GpuRenderSnapshot}
    (h : (outcome (snapshotDepthState registers render)).status = .kReady) :
    z.Supported ∧ outcome (snapshotDepthState registers render) = z.snapshot render := by
  rw [snapshotDepthState, readRegister_bind_of_some hread.zinfo,
    readRegister_bind_of_some hread.zbase, readRegister_bind_of_some hread.zbaseHi,
    readRegister_bind_of_some hread.zsizeXy, readRegister_bind_of_some hread.zsize] at h ⊢
  obtain ⟨hinfo, hrest⟩ := (rejectIf_ready_iff unsupported_ne_ready).mp h
  obtain ⟨hpitch, -⟩ := (rejectIf_ready_iff unsupported_ne_ready).mp hrest
  rw [rejectIf_bind_of_false hinfo, rejectIf_bind_of_false hpitch]
  simp only [Bool.or_eq_false_iff, decide_eq_false_iff_not, not_not] at hinfo hpitch
  exact ⟨⟨⟨hinfo.1.1.1.1, hinfo.1.1.1.2, hinfo.1.1.2, hinfo.1.2⟩, hinfo.2,
    BitVec.not_lt.mp hpitch⟩, rfl⟩

theorem DepthRegisters.Supported.depthBase_ne_zero (h : z.Supported) (render : GpuRenderSnapshot) :
    (z.snapshot render).depthBase ≠ 0 := by
  intro hzero
  have hlow := (BitVec.or_eq_zero_iff.mp hzero).1
  apply h.zbase
  have hnat := congrArg BitVec.toNat hlow
  rw [BitVec.toNat_shiftLeft, BitVec.toNat_setWidth] at hnat
  apply BitVec.eq_of_toNat_eq
  simp only [BitVec.ofNat_eq_ofNat, BitVec.toNat_ofNat] at hnat ⊢
  omega

/-! ## The snapshot of an action -/

variable (action)

/-- The first words of a packet that the snapshot looks at. -/
def GpuAction.value (index : ℕ) : BitVec 64 := action.values.toList.getD index 0

/-- A direct dispatch with a size in every dimension. Its snapshot needs no register. -/
def GpuAction.IsDirectDispatch : Prop :=
  action.type = .kDispatch ∧ action.opcode = pm4DispatchDirect ∧ 3 ≤ action.valueCount ∧
    action.value 0 ≠ 0 ∧ action.value 1 ≠ 0 ∧ action.value 2 ≠ 0 ∧
    action.value 0 ≤ 0xffffffff ∧ action.value 1 ≤ 0xffffffff ∧ action.value 2 ≤ 0xffffffff

/-- A draw with automatic indices of at least one vertex. -/
def GpuAction.IsAutoDraw : Prop :=
  action.type = .kDraw ∧ action.opcode = pm4DrawIndexAuto ∧ 2 ≤ action.valueCount ∧
    action.value 0 ≠ 0 ∧ action.value 0 ≤ 0xffffffff

/-- The snapshot of a draw before any register is read. -/
def drawStart : GpuRenderSnapshot :=
  { status := .kUnsupported, firstRegister := cbColor0Base, firstValue := action.opcode }

variable {action}

theorem snapshotRenderState_of_draw (registers : GpuRegisters) (h : action.IsAutoDraw) :
    snapshotRenderState registers action =
      outcome (snapshotDrawState registers (drawStart action) (low32 (action.value 0))) := by
  obtain ⟨htype, hopcode, hcount, hvertices, hword⟩ := h
  unfold GpuAction.value at hvertices hword ⊢
  have hdisp : action.type ≠ .kDispatch := by rw [htype]; decide
  rw [snapshotRenderState, if_neg fun h => hdisp h.1, if_neg]
  · rw [if_pos htype]
    unfold outcome drawStart
    split <;> rename_i heq <;> rw [heq]
  · simpa [htype, hopcode, Nat.not_lt.mpr hcount] using And.intro hvertices hword

theorem cases_of_snapshotRenderState_ready
    (h : (snapshotRenderState registers action).status = .kReady) :
    action.IsDirectDispatch ∨ action.IsAutoDraw := by
  rw [snapshotRenderState] at h
  dsimp only at h
  split at h
  next hdisp =>
    left
    simpa [GpuAction.IsDirectDispatch, GpuAction.value] using hdisp
  right
  split at h
  · exact absurd h unsupported_ne_ready
  next hdraw =>
    simp only [not_or, Decidable.not_not, Nat.not_lt] at hdraw
    obtain ⟨htype, hopcode, hcount, hvertices, hword⟩ := hdraw
    exact ⟨htype, hopcode, hcount, hvertices, by simpa [GpuAction.value] using hword⟩

/-- The snapshot was computed from registers that were present and supported: none for a dispatch,
those of the colour half for a draw, and those of the depth half too if depth is enabled. -/
def Backed (registers : GpuRegisters) (action : GpuAction) (render : GpuRenderSnapshot) : Prop :=
  action.IsDirectDispatch ∨
  ∃ d : DrawRegisters, d.ReadFrom registers ∧ d.Supported registers ∧ (render.depthEnabled = false ∧
        render = d.snapshot (drawStart action) (low32 (action.value 0)) ∨
      render.depthEnabled = true ∧ render.depthBase ≠ 0 ∧
        render.depthWidth.setWidth 64 * 4 ≤ render.depthRowPitchBytes ∧
        ∃ z : DepthRegisters, z.ReadFrom registers ∧ z.Supported ∧
          render = z.snapshot (d.snapshot (drawStart action) (low32 (action.value 0))))

/-- The draw enables depth and not all depth registers are present. -/
def MissesDepth (registers : GpuRegisters) (action : GpuAction) : Prop :=
  action.IsAutoDraw ∧ ∃ d : DrawRegisters, d.ReadFrom registers ∧ d.Supported registers ∧
    d.depthControl.getLsbD 1 = true ∧ ¬ ∃ z : DepthRegisters, z.ReadFrom registers

/-- A ready snapshot was computed from registers that were present and supported, except for a
draw that enables depth without all the depth registers. Its snapshot is ready all the same. -/
theorem snapshotRenderState_ready_iff (registers : GpuRegisters) (action : GpuAction) :
    ((snapshotRenderState registers action).status = .kReady →
      Backed registers action (snapshotRenderState registers action)) ↔
    ¬ MissesDepth registers action := by
  constructor
  · rintro hbacked ⟨hdraw, d, hread, hsupported, hdepth, hmissing⟩
    have hsnapshot := snapshotRenderState_of_draw registers hdraw
    rw [snapshotDrawState_of_supported hread hsupported, if_pos hdepth] at hsnapshot
    obtain ⟨register, hnamed⟩ := snapshotDepthState_of_missing hmissing
      (d.snapshot (drawStart action) (low32 (action.value 0)))
    rw [hnamed] at hsnapshot
    rw [hsnapshot] at hbacked
    rcases hbacked rfl with hdispatch | ⟨_, -, -, ⟨hdisabled, -⟩ | ⟨-, -, -, z, hz, -⟩⟩
    · exact absurd (hdraw.1.symm.trans hdispatch.1) (by decide)
    · exact absurd (hdepth.symm.trans hdisabled) (by decide)
    · exact hmissing ⟨z, hz⟩
  · intro hdepth hready
    rcases cases_of_snapshotRenderState_ready hready with hdispatch | hdraw
    · exact .inl hdispatch
    right
    rw [snapshotRenderState_of_draw _ hdraw] at hready ⊢
    obtain ⟨d, hread, hsupported⟩ := exists_of_snapshotDrawState_ready unsupported_ne_ready hready
    refine ⟨d, hread, hsupported, ?_⟩
    rw [snapshotDrawState_of_supported hread hsupported] at hready ⊢
    cases henabled : d.depthControl.getLsbD 1 with
    | false => exact .inl ⟨henabled, rfl⟩
    | true =>
      obtain ⟨z, hz⟩ : ∃ z : DepthRegisters, z.ReadFrom registers := by
        by_contra hmissing
        exact hdepth ⟨hdraw, d, hread, hsupported, henabled, hmissing⟩
      rw [henabled] at hready
      rw [if_pos rfl]
      obtain ⟨hz', hsnapshot⟩ := snapshotDepthState_of_ready hz hready
      rw [hsnapshot]
      exact .inr ⟨henabled, hz'.depthBase_ne_zero _, hz'.pitch, z, hz, hz', rfl⟩

/-- A draw of three vertices to a target of one pixel, with depth enabled, over the given depth
registers. -/
def onePixel (depth : List (BitVec 32 × BitVec 32)) : GpuRegisters where
  context register := List.lookup register (depth ++ [(cbColor0Base, 1), (cbColor0Pitch, 0),
    (cbColor0Slice, 0), (cbColor0View, 0), (cbColor0Info, 0x28), (cbColor0Attrib, 0),
    (cbColor0Attrib2, 0), (cbColor0Attrib3, 0), (cbTargetMask, 0xf), (cbBlend0Control, 0),
    (paSuScModeControl, 0), (vportScissorTl, 0), (vportScissorBr, 0x10001), (vportXScale, 0),
    (vportXScale + 1, 0), (vportXScale + 2, 0), (vportXScale + 3, 0), (vportZMin, 0),
    (vportZMax, 0), (dbDepthControl, 2)])
  shader _ := none
  userConfig register :=
    List.lookup register [(vgtPrimitiveType, 4), (syntheticDrawInstanceCount, 1)]

def threeVertices : GpuAction where
  type := .kDraw
  opcode := pm4DrawIndexAuto
  valueCount := 2
  values := Vector.replicate 8 3

/-- With all the depth registers, the ready snapshot is backed by them. -/
theorem snapshotRenderState_ready_iff_complete :
    let registers := onePixel [(dbZInfo, 3), (dbZWriteBase, 1), (dbZWriteBaseHi, 0),
      (dbDepthSizeXy, 0), (dbDepthSize, 0)]
    Backed registers threeVertices (snapshotRenderState registers threeVertices) := by
  intro registers
  refine (snapshotRenderState_ready_iff registers threeVertices).mpr ?_ (by decide +kernel)
  rintro ⟨-, d, -, -, -, hmissing⟩
  exact hmissing ⟨⟨3, 1, 0, 0, 0⟩, ⟨rfl, rfl, rfl, rfl, rfl⟩⟩

/-- Without any depth register the snapshot is ready and has depth enabled. -/
theorem snapshotRenderState_ready_without_depth : let registers := onePixel []
    let render := snapshotRenderState registers threeVertices
    render.status = .kReady ∧ render.depthEnabled = true ∧ registers.context dbZInfo = none ∧
      ¬ (render.status = .kReady → Backed registers threeVertices render) := by
  intro registers render
  have hready : render.status = .kReady := by decide +kernel
  have henabled : render.depthEnabled = true := by decide +kernel
  refine ⟨hready, henabled, rfl, fun h => ?_⟩
  rcases h hready with hdispatch | ⟨_, -, -, ⟨hdisabled, -⟩ | ⟨-, -, -, z, hz, -⟩⟩
  · exact absurd hdispatch.1 (by decide)
  · cases hdisabled
  · cases hz.zinfo

end KajPS5.Gpu
