import Testbench.Text.Class
import Testbench.Text.Blank
import Testbench.Numeral
import Testbench.LittleEndian
import Testbench.Binary.Source
import Testbench.Binary.Words
import Testbench.Elf.Builder
import Testbench.Elf.Reader
import Testbench.CommandLine.Run
import Testbench.Flags.Source
import Testbench.Image.Basic
import Testbench.Image.HexFile
import Testbench.Json.Scanner
import Testbench.Main
import Testbench.Memory.BusRam
import Testbench.Memory.WordMemory
import Testbench.Section.Table
import Testbench.Toolchain
import Testbench.Trace.Session
import Testbench.Proofs.Traversal
import Testbench.Proofs.Memory.ByteView
import Testbench.Proofs.Memory.Mirror
import Testbench.Proofs.Binary.Contents
import Testbench.Proofs.Image.Load
import Testbench.Proofs.Image.Placement
import Testbench.Proofs.Image.HexReading
import Testbench.Proofs.Image.Simulation
import Testbench.Proofs.Flags.Decoding
import Testbench.Proofs.Trace.Run
import Testbench.Proofs.Trace.Divergence
import Testbench.Proofs.Json.Quoted
import Testbench.Proofs.Json.Number
import Testbench.Proofs.Trace.Scanning
import Testbench.Proofs.Trace.Reading
import Testbench.Proofs.Trace.RoundTrip
import Testbench.Proofs.Elf.Held
import Testbench.Proofs.Elf.Classes
import Testbench.Proofs.Elf.Places
import Testbench.Proofs.Text.Decoding
import Testbench.Proofs.Elf.RoundTrip
import Testbench.Proofs.Listing.Columns
import Testbench.Proofs.Text.Spelling
import Testbench.Proofs.Listing.Described
import Testbench.Proofs.Elf.Decoded
import Testbench.Proofs.Listing.Agreement
import Testbench.Proofs.Image.Observation
import Testbench.Proofs.Image.Capacity
import Testbench.Proofs.Image.HexWriting
import Testbench.Proofs.Flags.Names
import Testbench.Proofs.Flags.Bits
import Testbench.Proofs.Trace.Migration
import Testbench.Proofs.Json.Effect
import Testbench.Proofs.Trace.Nesting
import Testbench.Proofs.Trace.Truncation
import Testbench.Proofs.CommandLine.Migration
import Testbench.Proofs.Image.Extent
import Testbench.Proofs.Trace.Lifetime
import Testbench.Proofs.Text.Trimming
import Testbench.Proofs.Flags.Members
import Testbench.Proofs.Flags.Declared
import Testbench.Proofs.Elf.Checked
import Testbench.Proofs.Elf.Acceptance
import Testbench.Proofs.Image.Boundary
import Testbench.Proofs.Text.Items
import Testbench.Proofs.Flags.NameList
import Testbench.Proofs.Flags.Inverse
import Testbench.Proofs.Trace.Verdict
import Testbench.Proofs.Image.Markers
import Testbench.Proofs.Memory.Patch
import Testbench.Proofs.Image.Order
import Testbench.Proofs.Binary.Extraction
import Testbench.Proofs.Flags.Insertion
import Testbench.Proofs.Image.Dump
import Testbench.Proofs.Image.Translation
import Testbench.Proofs.Memory.Calls
import Testbench.Proofs.Flags.Literal
