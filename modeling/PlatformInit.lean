import PlatformInit.Bench.Discovery
import PlatformInit.Bench.Ipl
import PlatformInit.Bench.Loader
import PlatformInit.Bench.Smram
import PlatformInit.Log.Serial
import PlatformInit.Proofs.Cache.Overlap
import PlatformInit.Proofs.Context.Ownership
import PlatformInit.Proofs.Hob.InMemory
import PlatformInit.Proofs.Hob.RoundTrip
import PlatformInit.Proofs.Loader.Relocation
import PlatformInit.Proofs.Loader.MemoryDefaults
import PlatformInit.Proofs.Loader.PoolGeometry
import PlatformInit.Proofs.Loader.StageOrder
import PlatformInit.Proofs.MemoryMap.DiscoveryOrder
import PlatformInit.Proofs.MemoryMap.Tiling
import PlatformInit.Proofs.Mm.Cleanup
import PlatformInit.Proofs.Mm.DispatchRounds
import PlatformInit.Proofs.Mm.Erasure
import PlatformInit.Proofs.Mm.FixedPlace
import PlatformInit.Proofs.Mm.Introduction
import PlatformInit.Proofs.Mm.LockBelief
import PlatformInit.Proofs.Mm.LockedWindow
import PlatformInit.Proofs.Mm.Placement
import PlatformInit.Proofs.Mm.Publication
import PlatformInit.Proofs.Mm.Returning
import PlatformInit.Proofs.Mm.SharedRecord
import PlatformInit.Proofs.Mm.Subscriptions
import PlatformInit.Proofs.Smram.Conservation
import PlatformInit.Proofs.Bytes.Adjusting
import PlatformInit.Proofs.Pe.Fixups
import PlatformInit.Proofs.Pe.Relocating
import PlatformInit.Proofs.Pe.MovingAgain
import PlatformInit.Proofs.Cache.FixedRanges
import PlatformInit.Proofs.Cache.Refusal
import PlatformInit.Proofs.Cache.TypeBytes
import PlatformInit.Proofs.Pe.Layout
import PlatformInit.Proofs.Mm.Launching
import PlatformInit.Proofs.Smram.Largest
import PlatformInit.Proofs.Smram.CacheRegion
import PlatformInit.Proofs.Smram.Claiming
import PlatformInit.Proofs.Volume.BackToBack
import PlatformInit.Proofs.Volume.Containment
import PlatformInit.Proofs.Volume.Layout
import PlatformInit.Proofs.Hob.Faults
import PlatformInit.Proofs.MemoryMap.Sizes
import PlatformInit.Proofs.Smram.Handoff
import PlatformInit.Proofs.Volume.Stopping
import PlatformInit.Proofs.Cache.LeastCover
import PlatformInit.Proofs.Pe.BlockPlaces
import PlatformInit.Proofs.Mm.BufferRuns
import PlatformInit.Proofs.Log.JsonLines
