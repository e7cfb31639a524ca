import KernelLaunch.Word
import KernelLaunch.Fault
import KernelLaunch.Bytes
import KernelLaunch.Number.Binary64
import KernelLaunch.Text.Classes
import KernelLaunch.Text.Quoted
import KernelLaunch.Json.Value
import KernelLaunch.Json.Reader
import KernelLaunch.Ir.Ty
import KernelLaunch.Ir.Syntax
import KernelLaunch.Ir.Print
import KernelLaunch.Ir.Encode
import KernelLaunch.Ir.Decode
import KernelLaunch.Ir.Load
import KernelLaunch.Ir.Builder
import KernelLaunch.Ir.CallGraph
import KernelLaunch.Diagnostic
import KernelLaunch.Device.Config
import KernelLaunch.Device.Toml
import KernelLaunch.Context
import KernelLaunch.Interp.Machine
import KernelLaunch.Text.Width
import KernelLaunch.Text.Style
import KernelLaunch.Text.Letters
import KernelLaunch.Text.Pattern
import KernelLaunch.Hash.Blake3
import KernelLaunch.Log
import KernelLaunch.Log.Filter
import KernelLaunch.Log.Terminal
import KernelLaunch.Diagnostic.Report
import KernelLaunch.Layout.ArgBuffer
import KernelLaunch.Layout.Cache
import KernelLaunch.Layout.Json
import KernelLaunch.Interp.Host
import KernelLaunch.Interp.Harness
import KernelLaunch.Kernel.Traits
import KernelLaunch.Kernel.Body
import KernelLaunch.Kernel.Launcher
import KernelLaunch.Kernel.Output
import KernelLaunch.Kernel.Pass
import KernelLaunch.Cli.Workspace
import KernelLaunch.Cli.Similarity
import KernelLaunch.Cli.Grammar
import KernelLaunch.Cli.Parse
import KernelLaunch.Cli.Interface
import KernelLaunch.Cli.Program
import KernelLaunch.Main
import KernelLaunch.Proofs.Ir.Reach
import KernelLaunch.Proofs.Ir.Insts
import KernelLaunch.Proofs.Interp.Exec
import KernelLaunch.Proofs.Interp.Trace
import KernelLaunch.Proofs.Interp.Invariant
import KernelLaunch.Proofs.Interp.Call
import KernelLaunch.Proofs.Interp.Loops
import KernelLaunch.Proofs.Interp.Memory
import KernelLaunch.Proofs.Launch.Builder
import KernelLaunch.Proofs.Launch.Run
import KernelLaunch.Proofs.Launch.Unpack
import KernelLaunch.Proofs.Bytes.Words
import KernelLaunch.Proofs.Context.Record
import KernelLaunch.Proofs.Pass.Emission
import KernelLaunch.Proofs.Pass.Additions
import KernelLaunch.Proofs.Pass.Installed
import KernelLaunch.Proofs.Pass.Clones
import KernelLaunch.Proofs.Pass.Skips
import KernelLaunch.Proofs.Pass.Rerun
import KernelLaunch.Proofs.Pass.Routing
import KernelLaunch.Proofs.Pass.Printing
import KernelLaunch.Proofs.Launch.Harness
import KernelLaunch.Proofs.Launch.Workgroup
import KernelLaunch.Proofs.Launch.Coverage
import KernelLaunch.Proofs.Launch.Sharing
import KernelLaunch.Proofs.Layout.Slots
import KernelLaunch.Proofs.Launch.Packing
import KernelLaunch.Proofs.Launch.Room
import KernelLaunch.Proofs.Ir.Registers
import KernelLaunch.Proofs.Pass.Totality
import KernelLaunch.Proofs.Layout.Rules
import KernelLaunch.Proofs.Layout.Fingerprint
import KernelLaunch.Proofs.Layout.Cache
import KernelLaunch.Proofs.Pass.Layouts
import KernelLaunch.Proofs.Launch.LocalMemory
import KernelLaunch.Proofs.Json.Cursor
import KernelLaunch.Proofs.Json.Strings
import KernelLaunch.Proofs.Json.Numbers
import KernelLaunch.Proofs.Json.Pretty
import KernelLaunch.Proofs.Json.Containers
import KernelLaunch.Proofs.Json.Records
import KernelLaunch.Proofs.Ir.DataForm
import KernelLaunch.Proofs.Context.Placement
import KernelLaunch.Proofs.Launch.PackedBuffer
import KernelLaunch.Proofs.Ir.Sizes
import KernelLaunch.Proofs.Launch.Ranges
import KernelLaunch.Proofs.Launch.BufferEntry
import KernelLaunch.Proofs.Ir.CallPaths
import KernelLaunch.Proofs.Interp.Steps
import KernelLaunch.Proofs.Interp.Output
import KernelLaunch.Proofs.Device.Settings
import KernelLaunch.Proofs.Device.Lines
import KernelLaunch.Proofs.Device.DeviceFile
import KernelLaunch.Proofs.Ir.Nesting
import KernelLaunch.Proofs.Pass.Substitution
import KernelLaunch.Proofs.Ir.Bracketing
import KernelLaunch.Proofs.Interp.Pointers
import KernelLaunch.Proofs.Body.Reference
import KernelLaunch.Proofs.Body.Simulation
import KernelLaunch.Proofs.Body.Prelude
import KernelLaunch.Proofs.Body.Privatized
