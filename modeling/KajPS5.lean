import KajPS5.Memory.UnmappedRanges
import KajPS5.Memory.Copies
import KajPS5.Hle.ArgumentSources
import KajPS5.Gpu.Uploads
import KajPS5.Gpu.BufferCache
import KajPS5.Gpu.ActionQueues
import KajPS5.Gpu.RenderSnapshots
import KajPS5.Gpu.PacketRoundTrip
import KajPS5.Gpu.BlockedActions
import KajPS5.Gpu.QueueHistory
import KajPS5.Kernel.PthreadSafety
import KajPS5.Kernel.RealtimeDeadlines
import KajPS5.Kernel.GuestPathText
import KajPS5.Kernel.EventQueueSafety
import KajPS5.Kernel.WaitObjectSafety
import KajPS5.Loader.Relocations
import KajPS5.Loader.ElfLoads
import KajPS5.Gpu.FlipRuns
import KajPS5.Shader.JumpTables
import KajPS5.Shader.ScalarMinMax
import KajPS5.Shader.PostDominators
import KajPS5.Runtime.ModulePlacement
