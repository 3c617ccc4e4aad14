import Dcpu16.Host.Paced
import Dcpu16.Host.Signal
import Dcpu16.Main
import Dcpu16.Proofs.Assembly.Flow
import Dcpu16.Proofs.Disassembly.Reassembly
import Dcpu16.Proofs.Host.Handoff
import Dcpu16.Proofs.Image.Store
import Dcpu16.Proofs.Machine.Stack
import Dcpu16.Proofs.Machine.Footprint
import Dcpu16.Proofs.Json.Literals
import Dcpu16.Proofs.Json.Tokens
import Dcpu16.Proofs.Json.Numerals
import Dcpu16.Proofs.Json.RoundTrip
import Dcpu16.Proofs.Json.Records
import Dcpu16.Proofs.Machine.Snapshots
import Dcpu16.Proofs.Host.Waiting
import Dcpu16.Proofs.Host.Progress
import Dcpu16.Proofs.Host.Shutdown
import Dcpu16.Proofs.Host.Length
import Dcpu16.Proofs.Host.Passive
import Dcpu16.Proofs.Host.Outcome
import Dcpu16.Proofs.Host.Timing
import Dcpu16.Proofs.Machine.Arithmetic
import Dcpu16.Proofs.Machine.Checked
import Dcpu16.Proofs.Machine.Histories
import Dcpu16.Proofs.Disassembly.Columns
import Dcpu16.Proofs.Disassembly.Agreement
import Dcpu16.Proofs.Assembly.Rearranging
import Dcpu16.Proofs.Assembly.Names
import Dcpu16.Proofs.Assembly.Data
import Dcpu16.Proofs.Image.Tokens
import Dcpu16.Proofs.Assembly.Values
import Dcpu16.Proofs.Settings
