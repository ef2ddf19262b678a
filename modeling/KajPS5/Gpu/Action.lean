/-
# GPU actions

The command decoder turns each packet of a command buffer into actions, and every
sink below it receives the same record: what the packet asks for, where it was
read, its decoded values and, for draws and dispatches, the shader bindings and
the render state that held when the packet was decoded.

Values keep the width they have in the source. The signed scissor coordinates are
kept as their 32-bit patterns.
-/

import Mathlib.Data.List.Basic

namespace KajPS5.Gpu

/-- Words are looked up in lists of words by value. -/
scoped instance lawfulBEqWord : LawfulBEq (BitVec 32) := inferInstance

inductive GpuCommandStatus
  | kComplete | kBlocked | kInvalidArgument | kMemoryFault | kMalformedPacket | kUnsupportedPacket
  | kResourceLimit
  deriving DecidableEq, Repr

inductive GpuRenderSnapshotStatus
  | kNotRequested | kReady | kUnsupported
  deriving DecidableEq, Repr

/-- The render state a draw or a dispatch carries. `firstRegister` and `firstValue`
name the first state element that made the snapshot unsupported. -/
structure GpuRenderSnapshot where
  status : GpuRenderSnapshotStatus := .kNotRequested
  (firstRegister firstValue groupCountX groupCountY groupCountZ vertexCount : BitVec 32 := 0)
  instanceCount : BitVec 32 := 0
  (colorBase colorRowPitchBytes : BitVec 64 := 0)
  (colorWidth colorHeight colorFormat colorWriteMask primitiveType cullMode : BitVec 32 := 0)
  (frontFaceClockwise blendEnable : Bool := false)
  (blendControl viewportXScaleBits viewportXOffsetBits viewportYScaleBits : BitVec 32 := 0)
  (viewportYOffsetBits viewportZMinBits viewportZMaxBits scissorLeft scissorTop : BitVec 32 := 0)
  (scissorRight scissorBottom : BitVec 32 := 0)
  (depthEnabled depthWriteEnabled : Bool := false)
  depthCompare : BitVec 32 := 0
  (depthBase depthRowPitchBytes : BitVec 64 := 0)
  (depthWidth depthHeight : BitVec 32 := 0)
  deriving DecidableEq, Repr

inductive GpuRegisterSpace
  | kContext | kShader | kUserConfig
  deriving DecidableEq, Repr

inductive GpuActionType
  | kNop | kRegisterWrite | kSetBase | kSetIndexBuffer | kSetIndexSize | kSetIndexCount
  | kSetNumInstances | kDraw | kDispatch | kPredication | kWriteData | kReleaseMemory | kEventWrite
  | kWaitMemory | kIndirectBuffer | kRewind | kLodStats
  deriving DecidableEq, Repr

/-- `kExport` is the entry program of the vertex stage. -/
inductive GpuShaderStage
  | kPixel | kGeometry | kExport | kHull | kLocal | kCompute
  deriving DecidableEq, Repr

inductive GpuShaderBindingStatus
  | kUnregistered
  | kRegistered
  deriving DecidableEq, Repr

structure GpuShaderBinding where
  stage : GpuShaderStage := .kPixel
  status : GpuShaderBindingStatus := .kUnregistered
  (programAddress codeAddress headerAddress codeOffsetBytes : BitVec 64 := 0)
  codeSizeBytes : BitVec 32 := 0
  binaryType : BitVec 8 := 0
  deriving DecidableEq, Repr

/-- `kMaximumGpuActionShaderBindings`. -/
def maximumGpuActionShaderBindings : ℕ := 6

structure GpuAction where
  type : GpuActionType := .kNop
  packetAddress : BitVec 64 := 0
  (packetDwords opcode packetRegister : BitVec 32 := 0)
  values : Vector (BitVec 64) 8 := .replicate 8 0
  valueCount : ℕ := 0
  payload : List (BitVec 32) := []
  shaderBindings : Vector GpuShaderBinding maximumGpuActionShaderBindings := .replicate _ {}
  shaderBindingCount : ℕ := 0
  render : GpuRenderSnapshot := {}
  deriving DecidableEq, Repr

namespace GpuAction

/-- The actions a backend executes; all others are only recorded or act on memory. -/
def isWork (action : GpuAction) : Bool := action.type = .kDraw || action.type = .kDispatch

/-- The bindings in use, the first `shaderBindingCount` of the array. -/
def bindings (action : GpuAction) : List GpuShaderBinding :=
  action.shaderBindings.toList.take action.shaderBindingCount

end GpuAction

end KajPS5.Gpu
