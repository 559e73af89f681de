import Unjar.Main
import Unjar.Proofs.ClassFile.Agreement
import Unjar.Proofs.ClassFile.Collision
import Unjar.Proofs.ClassFile.Spelling
import Unjar.Proofs.CommandLine.Legacy
import Unjar.Proofs.CommandLine.RoundTrip
import Unjar.Proofs.Extract.Acceptance
import Unjar.Proofs.Extract.Landing
import Unjar.Proofs.Extract.Modes
import Unjar.Proofs.Extract.Stop
import Unjar.Proofs.Path.Normal
import Unjar.Proofs.Path.Pushing
import Unjar.Proofs.Program.Decompilation
import Unjar.Proofs.Program.Launching
import Unjar.Proofs.Run.Failure
import Unjar.Proofs.Run.Frame
import Unjar.Proofs.Run.Naming
import Unjar.Proofs.Run.Outputs
import Unjar.Proofs.Run.Overlap
import Unjar.Proofs.Run.Preparation
import Unjar.Proofs.Run.Presence
import Unjar.Proofs.Run.Repair
import Unjar.Proofs.Run.Resume
import Unjar.Proofs.Run.Spelling
import Unjar.Proofs.Run.Stop
import Unjar.Proofs.Run.Trace
import Unjar.Proofs.Walk.Enumeration
