import AddressPool.Action
import AddressPool.Address
import AddressPool.Address.Text
import AddressPool.Allocation
import AddressPool.Allocation.All
import AddressPool.Arguments
import AddressPool.Command
import AddressPool.CommandLine
import AddressPool.Config
import AddressPool.Config.Json
import AddressPool.Error
import AddressPool.Files.Faults
import AddressPool.Files.Path
import AddressPool.Files.Tree
import AddressPool.Json.Codec
import AddressPool.Json.Number
import AddressPool.Json.Scan
import AddressPool.Json.Value
import AddressPool.Lease
import AddressPool.Lease.Json
import AddressPool.Main
import AddressPool.Network
import AddressPool.Network.Text
import AddressPool.Proofs.Action
import AddressPool.Proofs.Address.Text
import AddressPool.Proofs.Allocation
import AddressPool.Proofs.Allocation.All
import AddressPool.Proofs.Allocation.Causes
import AddressPool.Proofs.Allocation.Denied
import AddressPool.Proofs.Allocation.Frame
import AddressPool.Proofs.Allocation.Gained
import AddressPool.Proofs.Allocation.Gateways
import AddressPool.Proofs.Allocation.GivenUp
import AddressPool.Proofs.Allocation.Granted
import AddressPool.Proofs.Allocation.Locking
import AddressPool.Proofs.Allocation.NextFree
import AddressPool.Proofs.Allocation.OnDisk
import AddressPool.Proofs.Allocation.Released
import AddressPool.Proofs.Allocation.Rewritten
import AddressPool.Proofs.Allocation.RollBack
import AddressPool.Proofs.Allocation.Served
import AddressPool.Proofs.Allocation.Steps
import AddressPool.Proofs.Allocation.Undone
import AddressPool.Proofs.Allocation.Usable
import AddressPool.Proofs.Arguments
import AddressPool.Proofs.Calls
import AddressPool.Proofs.Calls.Capacity
import AddressPool.Proofs.Calls.Fairness
import AddressPool.Proofs.Calls.OnDisk
import AddressPool.Proofs.Calls.Ownership
import AddressPool.Proofs.Command
import AddressPool.Proofs.Command.Frame
import AddressPool.Proofs.Command.RoundTrip
import AddressPool.Proofs.CommandLine
import AddressPool.Proofs.Config.Json
import AddressPool.Proofs.Files.Names
import AddressPool.Proofs.Files.Path
import AddressPool.Proofs.Files.Tree
import AddressPool.Proofs.Invocations
import AddressPool.Proofs.Invocations.Interleaving
import AddressPool.Proofs.Json.Codec
import AddressPool.Proofs.Json.RoundTrip
import AddressPool.Proofs.Json.Scan
import AddressPool.Proofs.Network
import AddressPool.Proofs.Network.Text
import AddressPool.Proofs.Range
import AddressPool.Proofs.Range.Canonical
import AddressPool.Proofs.RangeSet
import AddressPool.Proofs.RangeSet.Verdict
import AddressPool.Proofs.Resolver
import AddressPool.Proofs.Resolver.Written
import AddressPool.Proofs.Setup
import AddressPool.Proofs.Setup.Sound
import AddressPool.Proofs.Store.Alike
import AddressPool.Proofs.Store.Disk
import AddressPool.Proofs.Store.Disk.Files
import AddressPool.Proofs.Store.Disk.Frame
import AddressPool.Proofs.Store.Disk.Owners
import AddressPool.Proofs.Store.Exchanges
import AddressPool.Proofs.Store.Faulty
import AddressPool.Proofs.Store.Memory
import AddressPool.Proofs.Store.Mirror
import AddressPool.Proofs.Store.Names
import AddressPool.Proofs.Store.Recorded
import AddressPool.Proofs.Text.Blank
import AddressPool.Proofs.Text.Bytes
import AddressPool.Proofs.Text.Number
import AddressPool.Proofs.Text.Words
import AddressPool.Proofs.Walk
import AddressPool.Proofs.Walk.Candidates
import AddressPool.Proofs.Walk.Circuit
import AddressPool.Proofs.Walk.Recognised
import AddressPool.Proofs.Walk.Rotation
import AddressPool.Range
import AddressPool.Range.Json
import AddressPool.RangeSet
import AddressPool.Resolver
import AddressPool.Setup
import AddressPool.Store
import AddressPool.Store.Disk
import AddressPool.Store.Faulty
import AddressPool.Store.Memory
import AddressPool.Text.Blank
import AddressPool.Text.Bytes
import AddressPool.Text.Number
import AddressPool.Text.Quoted
import AddressPool.Text.Unprinted
import AddressPool.Walk
import AddressPool.Walk.Candidates
