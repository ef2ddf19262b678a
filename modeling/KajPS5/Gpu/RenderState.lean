/-
# What a draw or a dispatch carries

When the decoder hands a draw or a dispatch to its sink it adds two things to the
action that it takes from the registers at that moment: the program addresses of the
shader stages, and the render state as far as the bridge can execute it. The first
element outside that subset is named in the snapshot.
-/

import KajPS5.Gpu.Action
import KajPS5.Gpu.Pm4

namespace KajPS5.Gpu

/-- The register maps of the runtime. -/
structure GpuRegisters where
  context : BitVec 32 → Option (BitVec 32)
  shader : BitVec 32 → Option (BitVec 32)
  userConfig : BitVec 32 → Option (BitVec 32)

namespace GpuRegisters

def empty : GpuRegisters := ⟨fun _ => none, fun _ => none, fun _ => none⟩

/-- A write to one register. -/
def write (registers : GpuRegisters) (space : GpuRegisterSpace) (offset value : BitVec 32) :
    GpuRegisters :=
  let update (map : BitVec 32 → Option (BitVec 32)) (index : BitVec 32) : Option (BitVec 32) :=
    if index = offset then some value else map index
  match space with
  | .kContext => { registers with context := update registers.context }
  | .kShader => { registers with shader := update registers.shader }
  | .kUserConfig => { registers with userConfig := update registers.userConfig }

end GpuRegisters

/-! ## Shader programs -/

/-- The two registers that hold a stage's program address. -/
structure ShaderProgramPair where
  stage : GpuShaderStage
  (lo hi : BitVec 32)

def graphicsShaderProgramPairs : List ShaderProgramPair :=
  [⟨.kPixel, 0x008, 0x009⟩, ⟨.kGeometry, 0x088, 0x089⟩, ⟨.kExport, 0x0c8, 0x0c9⟩,
    ⟨.kHull, 0x108, 0x109⟩, ⟨.kLocal, 0x148, 0x149⟩]

def computeShaderProgramPair : ShaderProgramPair := ⟨.kCompute, 0x20c, 0x20d⟩

variable (registers : GpuRegisters)

/-- The binding `AddProgramBindingSnapshot` adds, if any. -/
def programBinding (pair : ShaderProgramPair) : Option GpuShaderBinding :=
  match registers.shader pair.lo, registers.shader pair.hi with
  | some lo, some hi =>
    let programAddress := lo.setWidth 64 <<< 8 ||| (hi.setWidth 64 &&& 0xff) <<< 40
    if programAddress = 0 then none else some { stage := pair.stage, programAddress }
  | _, _ => none

/-- `SnapshotProgramBindings`. At most five bindings come of it, so the array has room. -/
def snapshotProgramBindings (type : GpuActionType) : List GpuShaderBinding :=
  match type with
  | .kDraw => graphicsShaderProgramPairs.filterMap (programBinding registers)
  | .kDispatch => [computeShaderProgramPair].filterMap (programBinding registers)
  | _ => []

/-! ## Render state -/

def syntheticDrawInstanceCount : BitVec 32 := 0xfffffff0
def cbTargetMask : BitVec 32 := 0x08e
def vportScissorTl : BitVec 32 := 0x094
def vportScissorBr : BitVec 32 := 0x095
def vportZMin : BitVec 32 := 0x0b4
def vportZMax : BitVec 32 := 0x0b5
def vportXScale : BitVec 32 := 0x10f
def cbBlend0Control : BitVec 32 := 0x1e0
def dbDepthControl : BitVec 32 := 0x200
def paSuScModeControl : BitVec 32 := 0x205
def cbColor0Base : BitVec 32 := 0x318
def cbColor0Pitch : BitVec 32 := 0x319
def cbColor0Slice : BitVec 32 := 0x31a
def cbColor0View : BitVec 32 := 0x31b
def cbColor0Info : BitVec 32 := 0x31c
def cbColor0Attrib : BitVec 32 := 0x31d
def cbColor0Attrib2 : BitVec 32 := 0x3b0
def cbColor0Attrib3 : BitVec 32 := 0x3b8
def dbDepthSizeXy : BitVec 32 := 0x007
def dbZInfo : BitVec 32 := 0x010
def dbZWriteBase : BitVec 32 := 0x014
def dbDepthSize : BitVec 32 := 0x016
def dbZWriteBaseHi : BitVec 32 := 0x01c
def vgtPrimitiveType : BitVec 32 := 0x242

namespace GpuRenderSnapshot

/-- Name the element that stopped the snapshot; the status stays. -/
def unsupported (render : GpuRenderSnapshot) (register value : BitVec 32) : GpuRenderSnapshot :=
  { render with firstRegister := register, firstValue := value }

/-- A register that the snapshot needs, or the snapshot that names it as missing. -/
def readRegister (render : GpuRenderSnapshot) (map : BitVec 32 → Option (BitVec 32))
    (register : BitVec 32) : Except GpuRenderSnapshot (BitVec 32) := match map register with
  | none => .error (render.unsupported register 0)
  | some value => .ok value

/-- Leave the snapshot as it is with an element named, when a condition holds. -/
def rejectIf (condition : Bool) (render : GpuRenderSnapshot) (register value : BitVec 32) :
    Except GpuRenderSnapshot Unit :=
  if condition then .error (render.unsupported register value) else .ok ()

end GpuRenderSnapshot

open GpuRenderSnapshot

/-- The depth half of `SnapshotRenderState`, from a snapshot that is ready so far. A missing
depth register leaves the status at ready. -/
def snapshotDepthState (render : GpuRenderSnapshot) : Except GpuRenderSnapshot
    GpuRenderSnapshot := do
  let rejected := { render with status := .kUnsupported }
  let zinfo ← render.readRegister registers.context dbZInfo
  let zbase ← render.readRegister registers.context dbZWriteBase
  let zbaseHi ← render.readRegister registers.context dbZWriteBaseHi
  let zsizeXy ← render.readRegister registers.context dbDepthSizeXy
  let zsize ← render.readRegister registers.context dbDepthSize
  rejectIf (zinfo &&& 3 ≠ 3 || zinfo >>> 2 &&& 3 ≠ 0 || zinfo >>> 20 &&& 7 ≠ 0 ||
    zinfo.getLsbD 29 || zbase = 0) rejected dbZInfo zinfo
  let render := { render with
    depthBase := zbase.setWidth 64 <<< 8 ||| (zbaseHi.setWidth 64 &&& 0xff) <<< 40
    depthWidth := (zsizeXy &&& 0x3fff) + 1
    depthHeight := (zsizeXy >>> 16 &&& 0x3fff) + 1
    depthRowPitchBytes := ((zsize &&& 0x7ff).setWidth 64 + 1) * 8 }
  rejectIf (render.depthRowPitchBytes < render.depthWidth.setWidth 64 * 4)
    { render with status := .kUnsupported } dbDepthSize zsize
  return render

/-- The part of `SnapshotRenderState` that reads registers, for a draw of `vertexCount`
vertices. -/
def snapshotDrawState (render : GpuRenderSnapshot) (vertexCount : BitVec 32) : Except
    GpuRenderSnapshot GpuRenderSnapshot := do
  let base ← render.readRegister registers.context cbColor0Base
  let pitch ← render.readRegister registers.context cbColor0Pitch
  let slice ← render.readRegister registers.context cbColor0Slice
  let view ← render.readRegister registers.context cbColor0View
  let info ← render.readRegister registers.context cbColor0Info
  let attrib ← render.readRegister registers.context cbColor0Attrib
  let attrib2 ← render.readRegister registers.context cbColor0Attrib2
  let attrib3 ← render.readRegister registers.context cbColor0Attrib3
  let targetMask ← render.readRegister registers.context cbTargetMask
  let blend ← render.readRegister registers.context cbBlend0Control
  let mode ← render.readRegister registers.context paSuScModeControl
  let scissorTl ← render.readRegister registers.context vportScissorTl
  let scissorBr ← render.readRegister registers.context vportScissorBr
  let xscale ← render.readRegister registers.context vportXScale
  let xoffset ← render.readRegister registers.context (vportXScale + 1)
  let yscale ← render.readRegister registers.context (vportXScale + 2)
  let yoffset ← render.readRegister registers.context (vportXScale + 3)
  let zmin ← render.readRegister registers.context vportZMin
  let zmax ← render.readRegister registers.context vportZMax
  let depthControl ← render.readRegister registers.context dbDepthControl
  let primitive ← render.readRegister registers.userConfig vgtPrimitiveType
  let instances ← render.readRegister registers.userConfig syntheticDrawInstanceCount
  -- Only the first target, and only its four channels.
  rejectIf (targetMask &&& ~~~0xf ≠ 0) render cbTargetMask targetMask
  let secondTarget := (registers.context (cbColor0Base + 15)).getD 0
  rejectIf (secondTarget ≠ 0) render (cbColor0Base + 15) secondTarget
  rejectIf (info >>> 2 &&& 0x1f ≠ 10 || info >>> 8 &&& 7 ≠ 0 || info >>> 11 &&& 3 ≠ 0 ||
    info.getLsbD 14 || info.getLsbD 28 || info.getLsbD 31) render cbColor0Info info
  rejectIf (attrib &&& 0x1f ≠ 0 || attrib >>> 12 &&& 7 ≠ 0 || attrib >>> 15 &&& 3 ≠ 0 ||
      attrib3 ≠ 0 || slice ≠ 0 || view ≠ 0) render
    (if attrib3 ≠ 0 then cbColor0Attrib3 else cbColor0Attrib)
    (if attrib3 ≠ 0 then attrib3 else attrib)
  rejectIf (mode &&& 3 = 3 || mode.getLsbD 11 || mode.getLsbD 12 || mode.getLsbD 16) render
    paSuScModeControl mode
  rejectIf (!(blend &&& 0x1f ≤ 10 && blend >>> 5 &&& 7 ≤ 4 && blend >>> 8 &&& 0x1f ≤ 10 &&
    blend >>> 16 &&& 0x1f ≤ 10 && blend >>> 21 &&& 7 ≤ 4 && blend >>> 24 &&& 0x1f ≤ 10)) render
    cbBlend0Control blend
  let primitiveType := primitive &&& 0x3f
  rejectIf (primitiveType < 1 || primitiveType > 6 || primitiveType = 5) render vgtPrimitiveType
    primitive
  let width := (attrib2 >>> 14 &&& 0x3fff) + 1
  let height := (attrib2 &&& 0x3fff) + 1
  let rowPitch := ((pitch &&& 0x7ff).setWidth 64 + 1) * 8
  rejectIf (base = 0 || width = 0 || height = 0 || rowPitch < width.setWidth 64 * 4 ||
    instances = 0 || scissorTl.getLsbD 31) render cbColor0Base base
  let render := { render with
    status := .kReady
    vertexCount
    instanceCount := instances
    colorBase := base.setWidth 64 <<< 8
    colorRowPitchBytes := rowPitch
    colorWidth := width
    colorHeight := height
    colorFormat := 56
    colorWriteMask := targetMask &&& 0xf
    primitiveType
    cullMode := mode &&& 3
    frontFaceClockwise := mode.getLsbD 2
    blendEnable := blend.getLsbD 30
    blendControl := blend
    viewportXScaleBits := xscale
    viewportXOffsetBits := xoffset
    viewportYScaleBits := yscale
    viewportYOffsetBits := yoffset
    viewportZMinBits := zmin
    viewportZMaxBits := zmax
    scissorLeft := scissorTl &&& 0x7fff
    scissorTop := scissorTl >>> 16 &&& 0x7fff
    scissorRight := scissorBr &&& 0x7fff
    scissorBottom := scissorBr >>> 16 &&& 0x7fff }
  -- Fifteen bits each, so the signed comparison of the source is this one.
  rejectIf (render.scissorRight ≤ render.scissorLeft || render.scissorBottom ≤ render.scissorTop)
    { render with status := .kUnsupported } vportScissorBr scissorBr
  let render := { render with
    depthEnabled := depthControl.getLsbD 1
    depthWriteEnabled := depthControl.getLsbD 2
    depthCompare := depthControl >>> 4 &&& 7 }
  if render.depthEnabled then snapshotDepthState registers render else return render

/-- `SnapshotRenderState`. -/
def snapshotRenderState (action : GpuAction) : GpuRenderSnapshot :=
  let value (index : ℕ) : BitVec 64 := action.values.toList.getD index 0
  let isWord (x : BitVec 64) : Bool := x ≤ 0xffffffff
  if action.type = .kDispatch ∧ action.opcode = pm4DispatchDirect ∧ 3 ≤ action.valueCount ∧
      value 0 ≠ 0 ∧ value 1 ≠ 0 ∧ value 2 ≠ 0 ∧ isWord (value 0) ∧ isWord (value 1) ∧
      isWord (value 2) then
    { status := .kReady
      groupCountX := low32 (value 0)
      groupCountY := low32 (value 1)
      groupCountZ := low32 (value 2) }
  else
    let render : GpuRenderSnapshot :=
      { status := .kUnsupported
        firstRegister := if action.type = .kDraw then cbColor0Base else 0
        firstValue := action.opcode }
    if action.type ≠ .kDraw ∨ action.opcode ≠ pm4DrawIndexAuto ∨ action.valueCount < 2 ∨
        value 0 = 0 ∨ !isWord (value 0) then
      render
    else match snapshotDrawState registers render (low32 (value 0)) with
      | .ok snapshot => snapshot
      | .error snapshot => snapshot

end KajPS5.Gpu
