import StorageSwitch.Path
import StorageSwitch.File
import StorageSwitch.Config
import StorageSwitch.Lock
import StorageSwitch.Block.DeviceTree
import StorageSwitch.Descriptor.Table
import StorageSwitch.Mount.Table
import StorageSwitch.Driver.RootListing
import StorageSwitch.Vfs.State
import StorageSwitch.Vfs.Session
import StorageSwitch.Block.MemoryDisk
import StorageSwitch.Proofs.Descriptor.Refinement
import StorageSwitch.Proofs.Vfs.Ownership
import StorageSwitch.Proofs.Vfs.Lifetime
import StorageSwitch.Proofs.Vfs.Handles
import StorageSwitch.Proofs.Vfs.Opening
import StorageSwitch.Proofs.Vfs.Registration
import StorageSwitch.Proofs.Vfs.Removal
import StorageSwitch.Proofs.Vfs.HandBacks
import StorageSwitch.Proofs.Vfs.Quiescence
import StorageSwitch.Proofs.Vfs.Delegation
import StorageSwitch.Proofs.Vfs.Closing
import StorageSwitch.Proofs.Block.Forest
import StorageSwitch.Proofs.Block.Counting
import StorageSwitch.Proofs.Block.Runs
import StorageSwitch.Proofs.Block.Alignment
import StorageSwitch.Proofs.Block.Registration
import StorageSwitch.Proofs.Block.Generations
import StorageSwitch.Proofs.Block.Mirroring
import StorageSwitch.Proofs.Block.Removal
import StorageSwitch.Proofs.Block.Windows
import StorageSwitch.Proofs.Driver.Scanning
import StorageSwitch.Proofs.Vfs.Mounting
import StorageSwitch.Proofs.Vfs.Reservation
import StorageSwitch.Proofs.Vfs.Standing
import StorageSwitch.Proofs.Vfs.Listing
import StorageSwitch.Proofs.Vfs.Seeking
import StorageSwitch.Proofs.Path.Joining
import StorageSwitch.Proofs.Block.Layout
import StorageSwitch.Proofs.Error.Codes
import StorageSwitch.Proofs.Mount.Tenure
