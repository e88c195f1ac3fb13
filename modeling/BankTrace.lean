import BankTrace.Text.Digit
import BankTrace.Document
import BankTrace.FileSystem.Literal
import BankTrace.Toml.Draft
import BankTrace.Manifest
import BankTrace.Memory.AddressSpace
import BankTrace.MemoryMap
import BankTrace.Cpu.Disassembly
import BankTrace.Cdl.Store
import BankTrace.Trace.Access
import BankTrace.Trace.Analysis
import BankTrace.Report.Statistics
import BankTrace.Report.Summary
import BankTrace.CommandLine.Job
import BankTrace.CommandLine.Usage
import BankTrace.Main
import BankTrace.Proofs.Cpu.Decoding
import BankTrace.Proofs.Trace.LoadedCode
import BankTrace.Proofs.Trace.Reachability
import BankTrace.Proofs.MemoryMap.Positions
import BankTrace.Proofs.Trace.Preparation
import BankTrace.Proofs.Trace.Run
import BankTrace.Proofs.Trace.Journal
import BankTrace.Proofs.Trace.Belief
import BankTrace.Proofs.Trace.Marking
import BankTrace.Proofs.MemoryMap.Filled
import BankTrace.Proofs.Trace.Exactness
import BankTrace.Proofs.Trace.OrderFreedom
import BankTrace.Proofs.Trace.History
import BankTrace.Proofs.Trace.Contest
import BankTrace.Proofs.Trace.Stability
import BankTrace.Proofs.Trace.Effect
import BankTrace.Proofs.Trace.KnownData
import BankTrace.Proofs.Cdl.Account
import BankTrace.Proofs.Cdl.Restoration
import BankTrace.Proofs.MemoryMap.Requests
import BankTrace.Proofs.Trace.Checked
import BankTrace.Proofs.Trace.Safety
import BankTrace.Proofs.Cdl.Overwriting
import BankTrace.Proofs.Trace.Additions
import BankTrace.Proofs.CommandLine.Images
import BankTrace.Proofs.Trace.Independence
import BankTrace.Proofs.Trace.Configuration
import BankTrace.Proofs.Trace.Legality
import BankTrace.Proofs.Trace.Permissiveness
import BankTrace.Proofs.CommandLine.Failing
import BankTrace.Proofs.CommandLine.Touching
import BankTrace.Proofs.Trace.Accounting
import BankTrace.Proofs.Trace.Counting
import BankTrace.Proofs.Trace.Termination
import BankTrace.Proofs.Trace.Limit
import BankTrace.Proofs.Trace.Workers
import BankTrace.Proofs.MemoryMap.Selection
import BankTrace.Proofs.MemoryMap.Cache
import BankTrace.Proofs.MemoryMap.Table
import BankTrace.Proofs.Trace.RefusedRun
import BankTrace.Proofs.Trace.KeptMaps
import BankTrace.Proofs.FileSystem.Replacing
import BankTrace.Proofs.Cdl.Flushing
import BankTrace.Proofs.FileSystem.Writability
import BankTrace.Proofs.FileSystem.Removal
import BankTrace.Proofs.Cdl.Resumption
import BankTrace.Proofs.Cpu.Encodings
import BankTrace.Proofs.Trace.Continuation
import BankTrace.Proofs.Manifest.Schema
import BankTrace.Proofs.Memory.Declaration
import BankTrace.Proofs.FileSystem.Reading
import BankTrace.Proofs.Bank.Loading
import BankTrace.Proofs.MemoryMap.Contents
import BankTrace.Proofs.Trace.Recording
import BankTrace.Proofs.Trace.References
import BankTrace.Proofs.Bank.Nesting
import BankTrace.Proofs.Cdl.LoadedRuns
import BankTrace.Proofs.Trace.Sweeping
import BankTrace.Proofs.Report.Reasons
